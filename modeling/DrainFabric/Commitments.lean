import DrainFabric.Topology

/-!
# Commitments

What the topology promises — capacity, diversity, connectivity — as one predicate,
and the fact behind every removal: checking a removal by excluding a resource is the
same as checking the topology in which that resource is out of service.

* `Topology.Keeps` — every commitment holds without the excluded resources, measured
  by the computations of `validate_removal_many`;
* `Topology.validateRemovalMany_ok` — an accepted removal keeps the commitments;
* `Topology.Keeps.withdraw` — and so does the topology once the resource is
  unavailable.

All three checks look at a resource only through `Topology.usable`: is it in service
and not excluded?
-/

namespace DrainFabric

open Lib

variable {excluded : List ResourceId} {label : String} {numerator denominator : Nat}

namespace Topology

/-! ### The commitments without some resources -/

/-- The resources `validate_removal_many` excludes besides those to be removed. -/
def outOfService (t : Topology) : List ResourceId :=
  (t.resources.toList.filter (fun node => !node.isInService)).map ResourceNode.id

/-- The member paths of a group that have no excluded hop. -/
def availablePaths (t : Topology) (excluded : List ResourceId) (group : DiversityGroup) :
    List ResourceId :=
  group.paths.filter (fun pathId =>
    match t.paths.find? pathId with
    | none => false
    | some path => path.hops.all (fun hop => !excluded.contains hop))

/-- Every commitment holds without the excluded resources. -/
structure Keeps (t : Topology) (excluded : List ResourceId) (numerator denominator : Nat) :
    Prop where
  pools : ∀ pool ∈ t.capacityPools.toList,
    applyHeadroom pool.required numerator denominator ≤ t.availablePoolCapacity pool excluded
  groups : ∀ group ∈ t.diversityGroups.toList,
    group.requiredAvailable ≤ (t.availablePaths excluded group).length
  routes : ∀ route ∈ t.protectedRoutes,
    t.enumerateRoutes route.origin route.terminus excluded 1 maxRouteDepth ≠ []

/-- Every commitment holds with the resources that are in service. -/
def Intact (t : Topology) (numerator denominator : Nat) : Prop :=
  t.Keeps t.outOfService numerator denominator

theorem poolViolation_eq_none {t : Topology} {pool : CapacityPool} :
    t.poolViolation excluded label numerator denominator pool = none ↔
      applyHeadroom pool.required numerator denominator ≤
        t.availablePoolCapacity pool excluded := by
  simp [poolViolation]

theorem groupViolation_eq_none {t : Topology} {group : DiversityGroup} :
    t.groupViolation excluded label group = none ↔
      group.requiredAvailable ≤ (t.availablePaths excluded group).length := by
  show (if (t.availablePaths excluded group).length < group.requiredAvailable then
    some _ else none) = none ↔ _
  simp

theorem routeViolation_eq_none {t : Topology} {route : ProtectedRoute} :
    t.routeViolation excluded route = none ↔
      t.enumerateRoutes route.origin route.terminus excluded 1 maxRouteDepth ≠ [] := by
  simp [routeViolation]

/-! ### What an accepted removal says -/

/-- A check that reports violations only by their kind comes first in a chain of
checks: the chain is passed when this check and the rest are. -/
theorem firstViolation_ok {α : Type} {items : List α} {check : α → Option TopologyViolation}
    (hkind : ∀ a v, check a = some v → v.ok = false) (rest : Unit → Option TopologyViolation) :
    (((items.findSome? check).orElse rest).getD {}).ok = true ↔
      (∀ a ∈ items, check a = none) ∧ ((rest ()).getD {}).ok = true := by
  cases h : items.findSome? check with
  | none =>
    rw [List.findSome?_eq_none_iff] at h
    exact ⟨fun hrest => ⟨h, hrest⟩, fun hboth => hboth.2⟩
  | some v =>
    obtain ⟨a, ha, hv⟩ := List.exists_of_findSome?_eq_some h
    constructor
    · intro hok
      exact absurd hok (by simp [Option.orElse, hkind a v hv])
    · rintro ⟨hnone, -⟩
      simp [hnone a ha] at hv

theorem kind_of_removingViolation {t : Topology} (id : ResourceId) (v : TopologyViolation)
    (h : t.removingViolation id = some v) : v.ok = false := by
  unfold removingViolation at h
  split at h
  · cases h
    rfl
  · split_ifs at h
    cases h
    rfl

theorem kind_of_poolViolation {t : Topology} (pool : CapacityPool) (v : TopologyViolation)
    (h : t.poolViolation excluded label numerator denominator pool = some v) : v.ok = false := by
  simp only [poolViolation] at h
  split_ifs at h
  cases h
  rfl

theorem kind_of_groupViolation {t : Topology} (group : DiversityGroup) (v : TopologyViolation)
    (h : t.groupViolation excluded label group = some v) : v.ok = false := by
  simp only [groupViolation] at h
  split_ifs at h
  cases h
  rfl

theorem kind_of_routeViolation {t : Topology} (route : ProtectedRoute) (v : TopologyViolation)
    (h : t.routeViolation excluded route = some v) : v.ok = false := by
  simp only [routeViolation] at h
  split_ifs at h
  cases h
  rfl

/-- A removal is accepted exactly when it names resources that may be removed and
every commitment holds without them. -/
theorem validateRemovalMany_ok {t : Topology} {removing : List ResourceId} :
    (t.validateRemovalMany removing numerator denominator).ok = true ↔
      removing ≠ [] ∧ (∀ id ∈ removing, t.removingViolation id = none) ∧
        t.Keeps (t.outOfService ++ removing) numerator denominator := by
  cases removing with
  | nil => simp [validateRemovalMany, TopologyViolation.ok]
  | cons first others =>
    have hlast : ∀ excluded, ((t.protectedRoutes.findSome?
        (t.routeViolation excluded)).getD {}).ok = true ↔
          ∀ route ∈ t.protectedRoutes, t.routeViolation excluded route = none := by
      intro excluded
      have hkind : ∀ route violation, t.routeViolation excluded route = some violation →
          violation.ok = false := kind_of_routeViolation
      have hchain := @firstViolation_ok _ t.protectedRoutes _ hkind (fun _ => none)
      simpa [TopologyViolation.ok] using hchain
    simp only [validateRemovalMany]
    rw [firstViolation_ok kind_of_removingViolation, firstViolation_ok kind_of_poolViolation,
      firstViolation_ok kind_of_groupViolation, hlast]
    simp only [poolViolation_eq_none, groupViolation_eq_none, routeViolation_eq_none]
    constructor
    · rintro ⟨hremoving, hpools, hgroups, hroutes⟩
      exact ⟨List.cons_ne_nil _ _, hremoving, hpools, hgroups, hroutes⟩
    · rintro ⟨-, hremoving, hpools, hgroups, hroutes⟩
      exact ⟨hremoving, hpools, hgroups, hroutes⟩

/-! ### Looking at a resource -/

/-- Is the resource in service and not excluded? -/
def usable (t : Topology) (exclude : List ResourceId) (id : ResourceId) : Bool :=
  match t.resource id with
  | none => false
  | some node => node.isInService && !exclude.contains id

theorem usable_eq_true {t : Topology} {exclude : List ResourceId} {id : ResourceId} :
    t.usable exclude id = true ↔
      ∃ node, t.resource id = some node ∧ node.isInService = true ∧ id ∉ exclude := by
  unfold usable
  cases t.resource id with
  | none => simp
  | some node => simp

theorem mem_outOfService {t : Topology} {id : ResourceId} :
    id ∈ t.outOfService ↔ ∃ node, t.resource id = some node ∧ node.isInService = false := by
  simp only [outOfService, List.mem_map, List.mem_filter, Bool.not_eq_true']
  constructor
  · rintro ⟨node, ⟨hmem, hout⟩, rfl⟩
    exact ⟨node, Table.find?_of_mem hmem, hout⟩
  · rintro ⟨node, hnode, hout⟩
    exact ⟨node, ⟨Table.mem_of_find? hnode, hout⟩, Table.key_of_find? hnode⟩

/-- Two exclusions from two topologies leave the same resources usable. -/
structure SameUsable (t : Topology) (ex : List ResourceId) (t' : Topology)
    (ex' : List ResourceId) : Prop where
  usable : ∀ id, t.usable ex id = t'.usable ex' id
  resource : ∀ id, t.usable ex id = true → t.resource id = t'.resource id
  adjacency : t.adjacency = t'.adjacency

section Congruence

variable {t t' : Topology} {ex ex' : List ResourceId}

/-- A member adds to the pool only when it is usable. -/
theorem availablePoolCapacity_eq (t : Topology) (pool : CapacityPool) (ex : List ResourceId) :
    t.availablePoolCapacity pool ex = pool.members.foldl (fun total member =>
      if t.usable ex member then
        (addChecked total ((t.resource member).elim 0 ResourceNode.available)).getD u64Max
      else total) 0 := by
  unfold availablePoolCapacity
  congr 1
  funext total member
  unfold Topology.usable
  cases t.resource member with
  | none => simp
  | some node => cases hin : node.isInService <;> cases hex : ex.contains member <;> simp [hin]

theorem SameUsable.availablePoolCapacity (h : SameUsable t ex t' ex') (pool : CapacityPool) :
    t.availablePoolCapacity pool ex = t'.availablePoolCapacity pool ex' := by
  rw [availablePoolCapacity_eq, availablePoolCapacity_eq]
  congr 1
  funext total member
  rw [← h.usable member]
  by_cases hu : t.usable ex member = true
  · rw [h.resource member hu]
  · rw [if_neg hu, if_neg hu]

theorem SameUsable.routeStep (h : SameUsable t ex t' ex') (goal : ResourceId)
    (routeBudget depthBudget : Nat) (s : RouteSearch) :
    t.routeStep ⟨goal, ex, routeBudget, depthBudget⟩ s =
      t'.routeStep ⟨goal, ex', routeBudget, depthBudget⟩ s := by
  have hneighbors : ∀ id, t.neighbors id = t'.neighbors id := by
    intro id
    rw [neighbors, neighbors, h.adjacency]
  unfold Topology.routeStep
  cases s.stack with
  | nil => rfl
  | cons top below =>
    obtain ⟨current, index⟩ := top
    simp only [hneighbors]
    cases (t'.neighbors current)[index]? with
    | none => rfl
    | some next =>
      show (if _ then none else if _ then some _
          else if ¬ t.usable ex next = true then some _ else _) =
        (if _ then none else if _ then some _
          else if ¬ t'.usable ex' next = true then some _ else _)
      rw [h.usable next]

theorem SameUsable.routeLoop (h : SameUsable t ex t' ex') (goal : ResourceId)
    (routeBudget depthBudget fuel : Nat) (s : RouteSearch) :
    t.routeLoop ⟨goal, ex, routeBudget, depthBudget⟩ fuel s =
      t'.routeLoop ⟨goal, ex', routeBudget, depthBudget⟩ fuel s := by
  induction fuel generalizing s with
  | zero => rfl
  | succ fuel ih =>
    simp only [Topology.routeLoop, h.routeStep]
    cases t'.routeStep ⟨goal, ex', routeBudget, depthBudget⟩ s with
    | none => rfl
    | some s' => exact ih s'

/-- The search starts only between two usable resources. -/
theorem enumerateRoutes_eq (t : Topology) (source goal : ResourceId) (exclude : List ResourceId)
    (maxRoutes maxDepth : Nat) :
    t.enumerateRoutes source goal exclude maxRoutes maxDepth =
      if maxRoutes = 0 ∨ maxDepth = 0 then []
      else if t.usable exclude source && t.usable exclude goal then
        sortUnique (fun a b => decide (a < b))
          (t.routeLoop ⟨goal, exclude, min maxRoutes maxRoutesPerQuery, min maxDepth maxRouteDepth⟩
            (2 * maxRouteExpansions + 2)
            { stack := [(source, 0)], onPath := [source] }).routes
      else [] := by
  unfold enumerateRoutes Topology.usable
  by_cases hzero : maxRoutes = 0 ∨ maxDepth = 0
  · rw [if_pos hzero, if_pos hzero]
  · rw [if_neg hzero, if_neg hzero]
    cases hs : exclude.contains source <;> cases hg : exclude.contains goal <;>
      cases t.resource source <;> cases t.resource goal <;> simp
    rename_i origin target
    cases origin.isInService <;> cases target.isInService <;> simp

theorem SameUsable.enumerateRoutes (h : SameUsable t ex t' ex') (source goal : ResourceId)
    (maxRoutes maxDepth : Nat) :
    t.enumerateRoutes source goal ex maxRoutes maxDepth =
      t'.enumerateRoutes source goal ex' maxRoutes maxDepth := by
  rw [enumerateRoutes_eq, enumerateRoutes_eq, h.usable source, h.usable goal, h.routeLoop]

theorem availablePaths_congr (hpaths : t.paths = t'.paths) (hex : ∀ id, id ∈ ex ↔ id ∈ ex')
    (group : DiversityGroup) : t.availablePaths ex group = t'.availablePaths ex' group := by
  have hcontains : ∀ id, ex.contains id = ex'.contains id := by
    intro id
    rw [Bool.eq_iff_iff, List.contains_iff_mem, List.contains_iff_mem, hex]
  simp only [availablePaths, hpaths, hcontains]

end Congruence

/-! ### Withdrawing a resource -/

section Withdraw

variable {t t' : Topology} {id : ResourceId}

/-- Out of service are then the resources that were, and the withdrawn one. -/
theorem mem_outOfService_withdraw (h : t.setStatus id .unavailable = .ok t') (x : ResourceId) :
    x ∈ t.outOfService ++ [id] ↔ x ∈ t'.outOfService := by
  obtain ⟨node, hnode, -⟩ := setStatus_eq_ok.mp h
  rw [List.mem_append, List.mem_singleton, mem_outOfService, mem_outOfService,
    resource_setStatus h x]
  by_cases hx : x = id
  · subst hx
    simp [hnode, ResourceNode.isInService]
  · simp [hx]

/-- Excluding a resource and withdrawing it come to the same. -/
theorem sameUsable_withdraw (h : t.setStatus id .unavailable = .ok t') :
    SameUsable t (t.outOfService ++ [id]) t' t'.outOfService := by
  have hresource : ∀ x, t.usable (t.outOfService ++ [id]) x = true →
      t'.resource x = t.resource x := by
    intro x hx
    obtain ⟨_, -, -, hout⟩ := usable_eq_true.mp hx
    have hne : x ≠ id := fun heq => hout (by simp [heq])
    rw [resource_setStatus h x, if_neg hne]
  obtain ⟨node, hnode, hput⟩ := setStatus_eq_ok.mp h
  refine ⟨fun x => ?_, fun x hx => (hresource x hx).symm, by rw [hput]⟩
  rw [Bool.eq_iff_iff]
  constructor
  · intro hx
    obtain ⟨node, hx', hin, hout⟩ := usable_eq_true.mp hx
    refine usable_eq_true.mpr ⟨node, by rw [hresource x hx]; exact hx', hin, ?_⟩
    rwa [← mem_outOfService_withdraw h x]
  · intro hx
    obtain ⟨node', hx', hin, hout⟩ := usable_eq_true.mp hx
    rw [← mem_outOfService_withdraw h x] at hout
    have hne : x ≠ id := fun heq => hout (by simp [heq])
    rw [resource_setStatus h x, if_neg hne] at hx'
    exact usable_eq_true.mpr ⟨node', hx', hin, hout⟩

/-- A removal that keeps the commitments still keeps them once it is carried out. -/
theorem Keeps.withdraw (hkeeps : t.Keeps (t.outOfService ++ [id]) numerator denominator)
    (h : t.setStatus id .unavailable = .ok t') : t'.Intact numerator denominator := by
  have hsame := sameUsable_withdraw h
  have hmem := mem_outOfService_withdraw h
  obtain ⟨node, -, hput⟩ := setStatus_eq_ok.mp h
  constructor
  · intro pool hpool
    rw [← hsame.availablePoolCapacity]
    exact hkeeps.pools pool (by rw [hput] at hpool; exact hpool)
  · intro group hgroup
    rw [← availablePaths_congr (by rw [hput]) hmem]
    exact hkeeps.groups group (by rw [hput] at hgroup; exact hgroup)
  · intro route hroute
    rw [← hsame.enumerateRoutes]
    exact hkeeps.routes route (by rw [hput] at hroute; exact hroute)

/-- An accepted removal of one resource, carried out. -/
theorem intact_of_validateRemoval (hok : (t.validateRemoval id numerator denominator).ok = true)
    (h : t.setStatus id .unavailable = .ok t') : t'.Intact numerator denominator :=
  (validateRemovalMany_ok.mp hok).2.2.withdraw h

end Withdraw

end Topology

end DrainFabric
