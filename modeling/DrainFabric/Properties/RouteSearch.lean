import Mathlib.Data.List.Lex
import DrainFabric.Lib.Backtrack
import DrainFabric.Properties.RemovalChecks

/-!
# The route search

`enumerate_routes` is a backtracking search with two budgets. One iteration of its loop is
described once, as a `RouteMove`; the invariant `Searching` says that the stack spells a
stem, that what was reported is a route, and that every route was reported or is pending.

* `routeLoop_ends` — the loop ends by itself;
* `searching_loop` — the invariant along the loop;
* `route_search_exact` — what the search returns.
-/

namespace DrainFabric

open Lib

variable {s' : RouteSearch}

namespace Topology

/-- A simple path between two resources along edges, through resources that are in service
and not excluded, of at most `depth` resources. -/
def IsRoute (t : Topology) (source goal : ResourceId) (exclude : List ResourceId) (depth : Nat)
    (route : List ResourceId) : Prop :=
  SimplePath t.neighbors (fun id => t.usable exclude id = true) depth source goal route

/-! ### One iteration -/

/-- What an iteration of the search loop does. -/
inductive RouteMove (t : Topology) (q : RouteQuery) (s : RouteSearch) : RouteSearch → Prop
  | back {current : ResourceId} {index : Nat} {below : List (ResourceId × Nat)} :
      s.stack = (current, index) :: below → (t.neighbors current)[index]? = none →
      RouteMove t q s { s with stack := below, onPath := s.onPath.filter (· ≠ current) }
  | skip {current next : ResourceId} {index : Nat} {below : List (ResourceId × Nat)} :
      s.stack = (current, index) :: below → (t.neighbors current)[index]? = some next →
      (next ∈ s.onPath ∨ t.usable q.exclude next = false ∨ q.depthBudget ≤ s.stack.length) →
      RouteMove t q s { s with stack := (current, index + 1) :: below,
                               expansions := s.expansions + 1 }
  | arrive {current : ResourceId} {index : Nat} {below : List (ResourceId × Nat)} :
      s.stack = (current, index) :: below → (t.neighbors current)[index]? = some q.goal →
      t.usable q.exclude q.goal = true → s.stack.length < q.depthBudget →
      RouteMove t q s { s with stack := (current, index + 1) :: below,
                               expansions := s.expansions + 1,
                               routes := s.routes ++ [spelled below ++ [current] ++ [q.goal]] }
  | push {current next : ResourceId} {index : Nat} {below : List (ResourceId × Nat)} :
      s.stack = (current, index) :: below → (t.neighbors current)[index]? = some next →
      next ∉ s.onPath → t.usable q.exclude next = true → s.stack.length < q.depthBudget →
      next ≠ q.goal →
      RouteMove t q s { s with stack := (next, 0) :: (current, index + 1) :: below,
                               expansions := s.expansions + 1, onPath := next :: s.onPath }

/-- The loop goes on only within its budgets, by one of the moves. -/
theorem routeStep_some {t : Topology} {q : RouteQuery} {s : RouteSearch}
    (h : t.routeStep q s = some s') : s.expansions < maxRouteExpansions ∧ RouteMove t q s s' := by
  obtain ⟨routes, expansions, stack, onPath⟩ := s
  cases stack with
  | nil => cases h
  | cons frame below =>
    obtain ⟨current, index⟩ := frame
    simp only [routeStep] at h
    by_cases hbudget : routes.length ≥ q.routeBudget ∨ expansions ≥ maxRouteExpansions
    · rw [if_pos hbudget] at h
      cases h
    rw [if_neg hbudget] at h
    refine ⟨Nat.lt_of_not_le (fun hle => hbudget (Or.inr hle)), ?_⟩
    cases hnext : (t.neighbors current)[index]? with
    | none =>
      rw [hnext] at h
      obtain rfl := Option.some.inj h
      exact .back rfl hnext
    | some next =>
      rw [hnext] at h
      replace h : (if onPath.contains next = true then _
        else if ¬ t.usable q.exclude next = true then _
        else if ((current, index + 1) :: below).length ≥ q.depthBudget then _ else _) =
          some s' := h
      by_cases hon : onPath.contains next = true
      · rw [if_pos hon] at h
        obtain rfl := Option.some.inj h
        exact .skip rfl hnext (Or.inl (List.contains_iff_mem.mp hon))
      rw [if_neg hon] at h
      by_cases husable : t.usable q.exclude next = true
      swap
      · rw [if_pos husable] at h
        obtain rfl := Option.some.inj h
        exact .skip rfl hnext (Or.inr (Or.inl (Bool.eq_false_iff.mpr husable)))
      rw [if_neg (not_not_intro husable)] at h
      by_cases hdepth : ((current, index + 1) :: below).length ≥ q.depthBudget
      · rw [if_pos hdepth] at h
        obtain rfl := Option.some.inj h
        exact .skip rfl hnext (Or.inr (Or.inr hdepth))
      rw [if_neg hdepth] at h
      by_cases hgoal : next = q.goal
      · rw [if_pos hgoal] at h
        obtain rfl := Option.some.inj h
        subst hgoal
        have hroute : spelled below ++ [current] ++ [q.goal] =
            (((q.goal, 0) :: (current, index + 1) :: below).reverse.map Prod.fst) := by
          simp [spelled]
        rw [← hroute]
        exact .arrive rfl hnext husable (Nat.lt_of_not_le hdepth)
      · rw [if_neg hgoal] at h
        obtain rfl := Option.some.inj h
        exact .push rfl hnext (fun hmem => hon (List.contains_iff_mem.mpr hmem)) husable
          (Nat.lt_of_not_le hdepth) hgoal

/-! ### The loop ends -/

/-- What is left to do: an expansion may push a frame, and every frame is popped once. -/
def routeFuel (s : RouteSearch) : Nat := 2 * (maxRouteExpansions - s.expansions) + s.stack.length

theorem routeFuel_lt {t : Topology} {q : RouteQuery} {s : RouteSearch}
    (h : t.routeStep q s = some s') : routeFuel s' < routeFuel s := by
  obtain ⟨hroom, hmove⟩ := routeStep_some h
  cases hmove with
  | back hstack _ =>
    rw [routeFuel, routeFuel, hstack, List.length_cons]
    exact Nat.lt_succ_self _
  | skip hstack _ _ =>
    rw [routeFuel, routeFuel, hstack, List.length_cons, List.length_cons]
    dsimp only
    omega
  | arrive hstack _ _ _ =>
    rw [routeFuel, routeFuel, hstack, List.length_cons, List.length_cons]
    dsimp only
    omega
  | push hstack _ _ _ _ _ =>
    rw [routeFuel, routeFuel, hstack, List.length_cons, List.length_cons, List.length_cons]
    dsimp only
    omega

/-- With enough fuel the loop ends by itself. -/
theorem routeLoop_ends {t : Topology} {q : RouteQuery} {fuel : Nat} {s : RouteSearch}
    (hfuel : routeFuel s ≤ fuel) : t.routeStep q (t.routeLoop q fuel s) = none := by
  induction fuel generalizing s with
  | zero =>
    have hstack : s.stack = [] := by
      refine List.eq_nil_of_length_eq_zero ?_
      rw [routeFuel] at hfuel
      omega
    rw [routeLoop, routeStep, hstack]
  | succ fuel ih =>
    rw [routeLoop]
    cases hstep : t.routeStep q s with
    | none => exact hstep
    | some s' => exact ih (Nat.le_of_lt_succ ((routeFuel_lt hstep).trans_le hfuel))

/-! ### What the search has found and what it still leads to -/

/-- The state of the search for the routes from `source`. -/
structure Searching (t : Topology) (q : RouteQuery) (source : ResourceId) (s : RouteSearch) :
    Prop where
  stem : Stem t.neighbors (fun id => t.usable q.exclude id = true) q.depthBudget source q.goal
    (spelled s.stack)
  onPath : ∀ id, id ∈ s.onPath ↔ id ∈ spelled s.stack
  sound : ∀ route ∈ s.routes, t.IsRoute source q.goal q.exclude q.depthBudget route
  complete : ∀ route, t.IsRoute source q.goal q.exclude q.depthBudget route →
    route ∈ s.routes ∨ Pending t.neighbors s.stack route

section Moves

variable {t : Topology} {q : RouteQuery} {source current next : ResourceId} {index : Nat}
  {below : List (ResourceId × Nat)} {s : RouteSearch}

/-- Where a route goes when a successor of the top frame is tried. -/
theorem Searching.tried (inv : Searching t q source s)
    (hstack : s.stack = (current, index) :: below)
    (hnext : (t.neighbors current)[index]? = some next) {route : List ResourceId}
    (hroute : t.IsRoute source q.goal q.exclude q.depthBudget route) :
    route ∈ s.routes ∨ Pending t.neighbors ((current, index + 1) :: below) route ∨
      spelled below ++ [current] ++ [next] <+: route := by
  rcases inv.complete route hroute with hfound | hpending
  · exact Or.inl hfound
  · rw [hstack] at hpending
    rcases hpending.advance hnext with hon | hlater
    · exact Or.inr (Or.inr hon)
    · exact Or.inr (Or.inl hlater)

theorem Searching.back (inv : Searching t q source s)
    (hstack : s.stack = (current, index) :: below) (hnone : (t.neighbors current)[index]? = none) :
    Searching t q source
      { s with stack := below, onPath := s.onPath.filter (· ≠ current) } where
  stem := by
    refine inv.stem.of_prefix ?_
    rw [hstack, spelled_cons]
    exact List.prefix_append _ _
  onPath := by
    intro id
    have hnodup := inv.stem.nodup
    have hon := inv.onPath id
    rw [hstack, spelled_cons] at hnodup hon
    have hnew : current ∉ spelled below := fun hmem =>
      (List.nodup_append.mp hnodup).2.2 current hmem current (List.mem_singleton_self _) rfl
    rw [List.mem_filter, hon, List.mem_append, List.mem_singleton, decide_eq_true_eq]
    constructor
    · rintro ⟨hmem, hne⟩
      exact hmem.resolve_right hne
    · intro hmem
      exact ⟨Or.inl hmem, fun heq => hnew (heq ▸ hmem)⟩
  sound := inv.sound
  complete := by
    intro route hroute
    have hcases := inv.complete route hroute
    rw [hstack] at hcases
    exact hcases.imp_right (Pending.back hnone)

theorem Searching.skip (inv : Searching t q source s) (hstack : s.stack = (current, index) :: below)
    (hnext : (t.neighbors current)[index]? = some next)
    (hskip : next ∈ s.onPath ∨ t.usable q.exclude next = false ∨
      q.depthBudget ≤ s.stack.length) (expansions : Nat) :
    Searching t q source { s with stack := (current, index + 1) :: below, expansions } where
  stem := by simpa only [hstack, spelled_cons] using inv.stem
  onPath := by simpa only [hstack, spelled_cons] using inv.onPath
  sound := inv.sound
  complete := by
    intro route hroute
    rcases inv.tried hstack hnext hroute with hfound | hlater | hon
    · exact Or.inl hfound
    · exact Or.inr hlater
    · -- No route goes on to a successor that is skipped.
      obtain ⟨hnew, husable, hroom, -, -⟩ := hroute.onward hon
      rcases hskip with hmem | hout | hdeep
      · rw [inv.onPath next, hstack, spelled_cons] at hmem
        exact absurd hmem hnew
      · rw [hout] at husable
        cases husable
      · rw [← spelled_cons (current, index), ← hstack, length_spelled] at hroom
        exact absurd hdeep (Nat.not_le_of_lt hroom)

theorem Searching.arrive (inv : Searching t q source s)
    (hstack : s.stack = (current, index) :: below)
    (hnext : (t.neighbors current)[index]? = some q.goal)
    (husable : t.usable q.exclude q.goal = true) (hroom : s.stack.length < q.depthBudget)
    (expansions : Nat) :
    Searching t q source { s with stack := (current, index + 1) :: below, expansions,
                                  routes := s.routes ++ [spelled below ++ [current] ++ [q.goal]] } where
  stem := by simpa only [hstack, spelled_cons] using inv.stem
  onPath := by simpa only [hstack, spelled_cons] using inv.onPath
  sound := by
    intro route hmem
    rcases List.mem_append.mp hmem with hold | hnew
    · exact inv.sound route hold
    · obtain rfl := List.mem_singleton.mp hnew
      have hstem := inv.stem
      rw [← length_spelled] at hroom
      rw [hstack, spelled_cons] at hstem hroom
      exact hstem.arrive (List.mem_of_getElem? hnext) husable hroom
  complete := by
    intro route hroute
    rcases inv.tried hstack hnext hroute with hfound | hlater | hon
    · exact Or.inl (List.mem_append_left _ hfound)
    · exact Or.inr hlater
    · left
      rw [(hroute.onward hon).2.2.2.1 rfl]
      exact List.mem_append_right _ (List.mem_singleton_self _)

theorem Searching.push (inv : Searching t q source s)
    (hstack : s.stack = (current, index) :: below)
    (hnext : (t.neighbors current)[index]? = some next) (hnew : next ∉ s.onPath)
    (husable : t.usable q.exclude next = true) (hroom : s.stack.length < q.depthBudget)
    (hgoal : next ≠ q.goal) (expansions : Nat) :
    Searching t q source { s with stack := (next, 0) :: (current, index + 1) :: below, expansions,
                                  onPath := next :: s.onPath } where
  stem := by
    have hstem := inv.stem
    rw [inv.onPath next] at hnew
    rw [← length_spelled] at hroom
    rw [hstack, spelled_cons] at hstem hnew hroom
    rw [spelled_cons, spelled_cons]
    exact hstem.step (List.mem_of_getElem? hnext) hnew husable hroom hgoal
  onPath := by
    intro id
    simp only [List.mem_cons, inv.onPath id, hstack, spelled_cons, List.mem_append,
      List.not_mem_nil, or_false]
    exact or_comm
  sound := inv.sound
  complete := by
    intro route hroute
    rcases inv.tried hstack hnext hroute with hfound | hlater | hon
    · exact Or.inl hfound
    · exact Or.inr (Or.inr hlater)
    · obtain ⟨z, hz, honward⟩ := (hroute.onward hon).2.2.2.2 hgoal
      refine Or.inr (pending_of_onward hz ?_)
      rw [spelled_cons]
      exact honward

theorem Searching.step (inv : Searching t q source s) (h : t.routeStep q s = some s') :
    Searching t q source s' := by
  obtain ⟨-, hmove⟩ := routeStep_some h
  cases hmove with
  | back hstack hnone => exact inv.back hstack hnone
  | skip hstack hnext hskip => exact inv.skip hstack hnext hskip _
  | arrive hstack hnext husable hroom => exact inv.arrive hstack hnext husable hroom _
  | push hstack hnext hnew husable hroom hgoal =>
    exact inv.push hstack hnext hnew husable hroom hgoal _

end Moves

theorem searching_loop {t : Topology} {q : RouteQuery} {source : ResourceId} (fuel : Nat)
    {s : RouteSearch} (inv : Searching t q source s) :
    Searching t q source (t.routeLoop q fuel s) := by
  induction fuel generalizing s with
  | zero => exact inv
  | succ fuel ih =>
    rw [routeLoop]
    cases hstep : t.routeStep q s with
    | none => exact inv
    | some s' => exact ih (inv.step hstep)

theorem searching_start {t : Topology} {q : RouteQuery} {source : ResourceId}
    (hne : source ≠ q.goal) (husable : t.usable q.exclude source = true)
    (hdepth : q.depthBudget ≠ 0) :
    Searching t q source { stack := [(source, 0)], onPath := [source] } where
  stem :=
    { start := fun x hx => (Option.some.inj hx).symm
      edges := .singleton source
      nodup := List.nodup_singleton source
      ok := fun x hx => List.mem_singleton.mp hx ▸ husable
      short := Nat.one_le_iff_ne_zero.mpr hdepth
      before := fun hmem => hne (List.mem_singleton.mp hmem).symm }
  onPath := fun id => Iff.rfl
  sound := fun route hmem => by cases hmem
  complete := fun route hroute => Or.inr (hroute.pending hne)

/-! ### What the search returns -/

/-- The query of a call, with its limits cut to the fixed ones. -/
def routeQuery (goal : ResourceId) (exclude : List ResourceId) (maxRoutes maxDepth : Nat) :
    RouteQuery :=
  ⟨goal, exclude, min maxRoutes maxRoutesPerQuery, min maxDepth maxRouteDepth⟩

/-- The state in which the loop of a call is left. -/
def searchEnd (t : Topology) (source goal : ResourceId) (exclude : List ResourceId)
    (maxRoutes maxDepth : Nat) : RouteSearch :=
  t.routeLoop (routeQuery goal exclude maxRoutes maxDepth) (2 * maxRouteExpansions + 2)
    { stack := [(source, 0)], onPath := [source] }

/-- The search was stopped by the route or the expansion budget: it was not allowed any
route, or its loop was left with frames on the stack. -/
def BudgetStops (t : Topology) (source goal : ResourceId) (exclude : List ResourceId)
    (maxRoutes maxDepth : Nat) : Prop :=
  maxRoutes = 0 ∨
    (t.usable exclude source = true ∧ t.usable exclude goal = true ∧ maxDepth ≠ 0 ∧
      (t.searchEnd source goal exclude maxRoutes maxDepth).stack ≠ [] ∧
      (min maxRoutes maxRoutesPerQuery ≤
          (t.searchEnd source goal exclude maxRoutes maxDepth).routes.length ∨
        maxRouteExpansions ≤ (t.searchEnd source goal exclude maxRoutes maxDepth).expansions))

/-- Routes are compared resource by resource. -/
instance : IsStrictTotalOrder (List ResourceId)
    (Less (fun a b : List ResourceId => decide (a < b))) where
  trichotomous := fun a b h h' => by
    have hab : ¬ a < b := fun hlt => h (decide_eq_true hlt)
    have hba : ¬ b < a := fun hlt => h' (decide_eq_true hlt)
    exact le_antisymm (not_lt.mp hba) (not_lt.mp hab)
  irrefl := fun a h => lt_irrefl a (of_decide_eq_true h)
  trans := fun _ _ _ h h' => decide_eq_true ((of_decide_eq_true h).trans (of_decide_eq_true h'))

/-- A call searches between usable resources, and returns nothing otherwise. -/
theorem enumerateRoutes_cases (t : Topology) {source goal : ResourceId} (hne : source ≠ goal)
    (exclude : List ResourceId) (maxRoutes maxDepth : Nat) :
    (t.enumerateRoutes source goal exclude maxRoutes maxDepth = [] ∧
      (maxRoutes = 0 ∨
        ∀ route, ¬ t.IsRoute source goal exclude (min maxDepth maxRouteDepth) route)) ∨
    (t.usable exclude source = true ∧ t.usable exclude goal = true ∧ maxDepth ≠ 0 ∧
      t.enumerateRoutes source goal exclude maxRoutes maxDepth =
        sortUnique (fun a b => decide (a < b))
          (t.searchEnd source goal exclude maxRoutes maxDepth).routes ∧
      Searching t (routeQuery goal exclude maxRoutes maxDepth) source
        (t.searchEnd source goal exclude maxRoutes maxDepth)) := by
  rw [enumerateRoutes_eq]
  by_cases hzero : maxRoutes = 0 ∨ maxDepth = 0
  · refine Or.inl ⟨if_pos hzero, hzero.imp_right (fun hdepth route hroute => ?_)⟩
    have hshort := hroute.short
    rw [hdepth, Nat.zero_min, Nat.le_zero, List.length_eq_zero_iff] at hshort
    rw [IsRoute, hshort] at hroute
    cases hroute.start
  rw [if_neg hzero]
  by_cases husable : (t.usable exclude source && t.usable exclude goal) = true
  · rw [if_pos husable]
    rw [Bool.and_eq_true] at husable
    refine Or.inr ⟨husable.1, husable.2, fun h => hzero (Or.inr h), rfl, ?_⟩
    refine searching_loop _ (searching_start hne husable.1 (fun hdepth => ?_))
    rcases Nat.min_eq_zero_iff.mp hdepth with h | h
    · exact hzero (Or.inr h)
    · cases h
  · refine Or.inl ⟨if_neg husable, Or.inr (fun route hroute => husable ?_)⟩
    rw [Bool.and_eq_true]
    exact ⟨hroute.ok source (List.mem_of_mem_head? hroute.start),
      hroute.ok goal (List.mem_of_getLast? hroute.finish)⟩

/-- A loop that no budget stopped has emptied its stack. -/
theorem stack_of_routeStep_none {t : Topology} {q : RouteQuery} {s : RouteSearch}
    (h : t.routeStep q s = none)
    (hbudget : ¬ (q.routeBudget ≤ s.routes.length ∨ maxRouteExpansions ≤ s.expansions)) :
    s.stack = [] := by
  obtain ⟨routes, expansions, stack, onPath⟩ := s
  cases stack with
  | nil => rfl
  | cons frame below =>
    obtain ⟨current, index⟩ := frame
    simp only [routeStep] at h
    rw [if_neg hbudget] at h
    split at h
    · cases h
    · split_ifs at h

end Topology

open DrainFabric.Topology

/-- The search ends by itself; what it returns are routes; and unless a budget stopped it, it
returns all of them, sorted and without repetition. -/
theorem route_search_exact (t : Topology) {source goal : ResourceId} (hne : source ≠ goal)
    (exclude : List ResourceId) (maxRoutes maxDepth : Nat) :
    t.routeStep (routeQuery goal exclude maxRoutes maxDepth)
        (t.searchEnd source goal exclude maxRoutes maxDepth) = none ∧
      (∀ route ∈ t.enumerateRoutes source goal exclude maxRoutes maxDepth,
        t.IsRoute source goal exclude (min maxDepth maxRouteDepth) route) ∧
      (¬ t.BudgetStops source goal exclude maxRoutes maxDepth →
        (t.enumerateRoutes source goal exclude maxRoutes maxDepth).Pairwise (· < ·) ∧
        ∀ route, route ∈ t.enumerateRoutes source goal exclude maxRoutes maxDepth ↔
          t.IsRoute source goal exclude (min maxDepth maxRouteDepth) route) := by
  have hend : t.routeStep (routeQuery goal exclude maxRoutes maxDepth)
      (t.searchEnd source goal exclude maxRoutes maxDepth) = none :=
    routeLoop_ends (by simp [routeFuel])
  refine ⟨hend, ?_⟩
  rcases t.enumerateRoutes_cases hne exclude maxRoutes maxDepth with
    ⟨hempty, hnone⟩ | ⟨hsource, hgoal, hdepth, hreturn, inv⟩
  · rw [hempty]
    refine ⟨fun route hmem => (by cases hmem), fun hfree => ⟨.nil, fun route => ?_⟩⟩
    have hnone := hnone.resolve_left (fun hroutes => hfree (Or.inl hroutes))
    exact ⟨fun hmem => (by cases hmem), fun hroute => absurd hroute (hnone route)⟩
  · rw [hreturn]
    have hsound : ∀ route ∈ sortUnique (fun a b => decide (a < b))
        (t.searchEnd source goal exclude maxRoutes maxDepth).routes,
        t.IsRoute source goal exclude (min maxDepth maxRouteDepth) route :=
      fun route hmem => inv.sound route (mem_sortUnique.mp hmem)
    refine ⟨hsound, fun hfree => ⟨?_, fun route => ⟨hsound route, fun hroute => ?_⟩⟩⟩
    · exact (sortUnique_sorted _).imp of_decide_eq_true
    · have hstack : (t.searchEnd source goal exclude maxRoutes maxDepth).stack = [] := by
        by_contra hstack
        refine hstack (stack_of_routeStep_none hend (fun hbudget => ?_))
        exact hfree (Or.inr ⟨hsource, hgoal, hdepth, hstack, hbudget⟩)
      rw [mem_sortUnique]
      have hcases := inv.complete route hroute
      rw [hstack] at hcases
      exact hcases.resolve_right (fun hpending => hpending)

namespace TwoPorts

/-- Two ports between two switches. -/
def diamond : Topology :=
  build [.resource (port "a"), .resource (port "p1"), .resource (port "p2"), .resource (port "z"),
    .edge "a" "p1", .edge "a" "p2", .edge "p1" "z", .edge "p2" "z"]

end TwoPorts

open TwoPorts in
theorem route_search_exact_twoPorts :
    diamond.IsRoute "a" "z" [] maxRouteDepth ["a", "p2", "z"] ∧
      ¬ diamond.IsRoute "a" "z" [] maxRouteDepth ["a", "z"] := by
  have hfree : ¬ diamond.BudgetStops "a" "z" [] 8 16 := by
    rintro (h | ⟨-, -, -, hstack, -⟩)
    · cases h
    · exact hstack (by decide)
  have hexact := ((route_search_exact diamond (by decide) [] 8 16).2.2 hfree).2
  have hreturn : diamond.enumerateRoutes "a" "z" [] 8 16 = [["a", "p1", "z"], ["a", "p2", "z"]] := by
    decide
  rw [hreturn] at hexact
  exact ⟨(hexact _).mp (by decide), fun hroute => absurd ((hexact _).mpr hroute) (by decide)⟩

end DrainFabric
