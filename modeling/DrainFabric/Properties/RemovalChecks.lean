import Mathlib.Algebra.BigOperators.Group.Finset.Basic
import Mathlib.Algebra.Order.Floor.Div
import DrainFabric.Commitments
import DrainFabric.Lib.Run

/-!
# What an accepted removal promises

`validate_removal_many` adds up capacities with a saturating sum and counts paths by
walking their hops. Here both are compared with what they stand for: the exact capacity of
the distinct members that remain, and the distinct paths that `path_available` finds once
the removal is carried out.

Topologies are built by the add operations, and those check less than the sums rely on: a
pool or a group may list a member twice, and a path may name a resource nobody added.

The requirement of a pool is scaled by the headroom of the policy, rounded up by a sum that
can wrap.

* `headroom_rounds_up`, `headroom_wraps`;
* `capacity_check_sound`, `capacity_counted_twice`;
* `diversity_check_sound`, `diversity_counted_wrong`.
-/

namespace DrainFabric

open Lib

variable {required numerator denominator : Nat} {t : Topology} {removing : List ResourceId}

/-! ### Headroom -/

namespace Topology

theorem applyHeadroom_of_overflow (hpos : 0 < denominator) (h : u64Max < required * numerator) :
    applyHeadroom required numerator denominator = u64Max := by
  rw [applyHeadroom, if_neg hpos.ne', mulChecked_eq, if_neg (Nat.not_le.mpr h)]

theorem applyHeadroom_of_fits (hpos : 0 < denominator) (h : required * numerator ≤ u64Max) :
    applyHeadroom required numerator denominator =
      (required * numerator + denominator - 1) % 2 ^ 64 / denominator := by
  rw [applyHeadroom, if_neg hpos.ne', mulChecked_eq, if_pos h]

/-- A sum that wraps falls short of the ceiling: it lost more than one denominator. -/
theorem applyHeadroom_lt (hpos : 0 < denominator) (hdenominator : denominator ≤ u64Max)
    (h : required * numerator ≤ u64Max)
    (hwraps : u64Max < required * numerator + (denominator - 1)) :
    applyHeadroom required numerator denominator < (required * numerator) ⌈/⌉ denominator := by
  rw [applyHeadroom_of_fits hpos h, Nat.ceilDiv_eq_add_pred_div]
  unfold u64Max at *
  have hmod : (required * numerator + denominator - 1) % 2 ^ 64 =
      required * numerator + denominator - 1 - 2 ^ 64 := by omega
  rw [hmod]
  calc _ < (required * numerator + denominator - 1 - 2 ^ 64) / denominator + 1 := Nat.lt_succ_self _
    _ = (required * numerator + denominator - 1 - 2 ^ 64 + denominator) / denominator :=
        (Nat.add_div_right _ hpos).symm
    _ ≤ (required * numerator + denominator - 1) / denominator :=
        Nat.div_le_div_right (by omega)

end Topology

open DrainFabric.Topology in
/-- The headroom is the exact ceiling, or the largest value when the product does not fit,
exactly when the sum that rounds it up does not wrap. -/
theorem headroom_rounds_up {required numerator denominator : Nat}
    (hpos : 0 < denominator) (hdenominator : denominator ≤ u64Max) :
    ((required * numerator ≤ u64Max →
        applyHeadroom required numerator denominator = (required * numerator) ⌈/⌉ denominator) ∧
      (u64Max < required * numerator → applyHeadroom required numerator denominator = u64Max) ∧
      min ((required * numerator) ⌈/⌉ denominator) u64Max ≤
        applyHeadroom required numerator denominator) ↔
    (required * numerator ≤ u64Max → required * numerator + (denominator - 1) ≤ u64Max) := by
  constructor
  · intro h hfits
    by_contra hwraps
    exact (applyHeadroom_lt hpos hdenominator hfits (Nat.not_le.mp hwraps)).ne (h.1 hfits)
  · intro h
    have hexact : required * numerator ≤ u64Max →
        applyHeadroom required numerator denominator = (required * numerator) ⌈/⌉ denominator := by
      intro hfits
      rw [applyHeadroom_of_fits hpos hfits, Nat.ceilDiv_eq_add_pred_div, Nat.mod_eq_of_lt]
      have := h hfits
      unfold u64Max at this
      omega
    refine ⟨hexact, applyHeadroom_of_overflow hpos, ?_⟩
    rcases Nat.lt_or_ge u64Max (required * numerator) with hover | hfits
    · rw [applyHeadroom_of_overflow hpos hover]
      exact min_le_right _ _
    · rw [hexact hfits]
      exact min_le_left _ _

open DrainFabric.Topology in
theorem headroom_rounds_up_fraction :
    (5 * 4 ≤ u64Max → applyHeadroom 5 4 3 = (5 * 4) ⌈/⌉ 3) ∧
      (u64Max < 5 * 4 → applyHeadroom 5 4 3 = u64Max) ∧
      min ((5 * 4) ⌈/⌉ 3) u64Max ≤ applyHeadroom 5 4 3 :=
  (headroom_rounds_up (by decide) (by decide)).mpr (by decide)

/-- Half of the largest requirement is rounded away altogether. -/
theorem headroom_wraps : u64Max * 1 ≤ u64Max ∧ (u64Max * 1) ⌈/⌉ 2 = 2 ^ 63 ∧
    Topology.applyHeadroom u64Max 1 2 = 0 := by
  decide

namespace Topology

/-! ### Building a topology -/

/-- The operations that add to a topology. -/
inductive Addition
  | resource (node : ResourceNode)
  | edge (a b : ResourceId)
  | path (path : FabricPath)
  | group (group : DiversityGroup)
  | pool (pool : CapacityPool)
  | route (route : ProtectedRoute)

/-- The result of an addition. -/
def add (t : Topology) : Addition → Result Topology
  | .resource node => t.addResource node
  | .edge a b => t.addEdge a b
  | .path path => t.addPath path
  | .group group => t.addDiversityGroup group
  | .pool pool => t.addCapacityPool pool
  | .route route => t.addProtectedRoute route

/-- The topology after an addition; one that is refused leaves it as it was. -/
def extend (t : Topology) (a : Addition) : Topology :=
  match t.add a with
  | .ok t' => t'
  | .error _ => t

/-- The topology that a list of additions builds. -/
def build (additions : List Addition) : Topology := run extend {} additions

/-- What an accepted addition does. -/
inductive Adds (t : Topology) : Addition → Topology → Prop
  | resource {node : ResourceNode} :
      t.resource node.id = none →
      Adds t (.resource node) { t with resources := t.resources.put node }
  | edge {a b : ResourceId} (adjacency : OrdMap ResourceId (List ResourceId)) :
      Adds t (.edge a b) { t with adjacency }
  | path {path : FabricPath} :
      Adds t (.path path) { t with paths := t.paths.put path }
  | group {group : DiversityGroup} :
      Adds t (.group group) { t with diversityGroups := t.diversityGroups.put group }
  | pool {pool : CapacityPool} :
      Adds t (.pool pool) { t with capacityPools := t.capacityPools.put pool }
  | route {route : ProtectedRoute} :
      Adds t (.route route) { t with protectedRoutes := t.protectedRoutes ++ [route] }

theorem add_ok {t' : Topology} {a : Addition} (h : t.add a = .ok t') : Adds t a t' := by
  cases a with
  | resource node =>
    obtain ⟨-, -, hfree, rfl⟩ := addResource_eq_ok.mp h
    exact .resource hfree
  | edge a b =>
    simp only [add, addEdge, bind_eq_ok, pure_eq_ok] at h
    obtain ⟨_, -, _, -, rfl⟩ := h
    exact .edge _
  | path path =>
    obtain ⟨-, -, -, -, -, -, rfl⟩ := addPath_eq_ok.mp h
    exact .path
  | group group =>
    obtain ⟨-, -, -, -, -, -, rfl⟩ := addDiversityGroup_eq_ok.mp h
    exact .group
  | pool pool =>
    obtain ⟨-, -, -, -, rfl⟩ := addCapacityPool_eq_ok.mp h
    exact .pool
  | route route =>
    obtain ⟨-, -, -, -, rfl⟩ := addProtectedRoute_eq_ok.mp h
    exact .route

/-- What every accepted addition preserves holds of every built topology. -/
theorem build_invariant {P : Topology → Prop} {C : Topology → Addition → Prop} (hempty : P {})
    (hadds : ∀ t a t', P t → C t a → Adds t a t' → P t') {additions : List Addition}
    (h : Always extend C {} additions) : P (build additions) := by
  refine run_invariant (fun t a ht ha => ?_) hempty h
  unfold extend
  cases hadd : t.add a with
  | error err => exact ht
  | ok t' => exact hadds t a t' ht ha (add_ok hadd)

/-- Outside the removed resources, those out of service are not usable anyway. -/
theorem usable_outOfService_append (t : Topology) (removing : List ResourceId) (id : ResourceId) :
    t.usable (t.outOfService ++ removing) id = t.usable removing id := by
  rw [Bool.eq_iff_iff, usable_eq_true, usable_eq_true]
  constructor
  · rintro ⟨node, hnode, hin, hout⟩
    exact ⟨node, hnode, hin, fun hmem => hout (List.mem_append_right _ hmem)⟩
  · rintro ⟨node, hnode, hin, hout⟩
    refine ⟨node, hnode, hin, fun hmem => ?_⟩
    rcases List.mem_append.mp hmem with hdown | hremoved
    · obtain ⟨node', hnode', hdown⟩ := mem_outOfService.mp hdown
      obtain rfl := Option.some.inj (hnode.symm.trans hnode')
      rw [hin] at hdown
      cases hdown
    · exact hout hremoved

/-! ### Capacity -/

/-- What a resource contributes to a pool. -/
def contribution (t : Topology) (id : ResourceId) : Nat :=
  (t.resource id).elim 0 ResourceNode.available

/-- The distinct members of a pool that are in service and not removed. -/
def remainingMembers (t : Topology) (pool : CapacityPool) (removed : List ResourceId) :
    Finset ResourceId :=
  pool.members.toFinset.filter (fun id => t.usable removed id = true)

/-- The exact capacity of the members that remain, each counted once. -/
def exactCapacity (t : Topology) (pool : CapacityPool) (removed : List ResourceId) : Nat :=
  ∑ id ∈ t.remainingMembers pool removed, t.contribution id

theorem addChecked_getD_le (a b : Nat) : (addChecked a b).getD u64Max ≤ a + b := by
  unfold addChecked
  split_ifs with h
  · exact Nat.sub_le_iff_le_add.mp h.le
  · exact le_rfl

/-- A saturating sum over a list is at most the exact sum. -/
theorem foldl_addChecked_le (p : ResourceId → Bool) (f : ResourceId → Nat)
    (members : List ResourceId) (total : Nat) :
    members.foldl (fun total member =>
        if p member then (addChecked total (f member)).getD u64Max else total) total ≤
      total + ((members.filter p).map f).sum := by
  induction members generalizing total with
  | nil => exact le_rfl
  | cons member rest ih =>
    rw [List.foldl_cons]
    cases hp : p member with
    | false =>
      rw [if_neg Bool.false_ne_true, List.filter_cons_of_neg (by rw [hp]; exact Bool.false_ne_true)]
      exact ih total
    | true =>
      rw [if_pos rfl, List.filter_cons_of_pos hp, List.map_cons, List.sum_cons]
      calc _ ≤ (addChecked total (f member)).getD u64Max + ((rest.filter p).map f).sum := ih _
        _ ≤ total + f member + ((rest.filter p).map f).sum :=
            Nat.add_le_add_right (addChecked_getD_le _ _) _
        _ = total + (f member + ((rest.filter p).map f).sum) := Nat.add_assoc _ _ _

theorem exactCapacity_eq (t : Topology) {pool : CapacityPool} (hpool : pool.members.Nodup)
    (removed : List ResourceId) :
    t.exactCapacity pool removed =
      ((pool.members.filter (t.usable removed)).map t.contribution).sum := by
  have hmembers : t.remainingMembers pool removed =
      (pool.members.filter (t.usable removed)).toFinset := by
    rw [remainingMembers, List.toFinset_filter]
  rw [exactCapacity, hmembers, List.sum_toFinset _ (hpool.filter _)]

/-- The validator never counts more than there is in a pool without repetitions. -/
theorem availablePoolCapacity_le (t : Topology) {pool : CapacityPool} (hpool : pool.members.Nodup)
    (removed : List ResourceId) :
    t.availablePoolCapacity pool (t.outOfService ++ removed) ≤ t.exactCapacity pool removed := by
  rw [availablePoolCapacity_eq, exactCapacity_eq t hpool]
  simp only [usable_outOfService_append]
  have hle := foldl_addChecked_le (t.usable removed) t.contribution pool.members 0
  rw [Nat.zero_add] at hle
  exact hle

/-- A pool is added with distinct members. -/
def ListsMembersOnce (_ : Topology) : Addition → Prop
  | .pool pool => pool.members.Nodup
  | _ => True

instance (t : Topology) : DecidablePred t.ListsMembersOnce
  | .pool pool => inferInstanceAs (Decidable pool.members.Nodup)
  | .resource _ | .edge _ _ | .path _ | .group _ | .route _ => inferInstanceAs (Decidable True)

/-- No pool counts a member twice. -/
def PoolsDistinct (t : Topology) : Prop :=
  ∀ pool ∈ t.capacityPools.toList, pool.members.Nodup

theorem PoolsDistinct.adds {t t' : Topology} {a : Addition} (ht : t.PoolsDistinct)
    (ha : t.ListsMembersOnce a) (h : Adds t a t') : t'.PoolsDistinct := by
  cases h with
  | pool =>
    intro pool hpool
    rcases mem_putList hpool with rfl | hold
    · exact ha
    · exact ht pool hold
  | resource _ => exact ht
  | edge _ => exact ht
  | path => exact ht
  | group => exact ht
  | route => exact ht

end Topology

open DrainFabric.Topology

/-- In every topology built from pools that list distinct members: an accepted removal leaves
every pool at least its headroom-adjusted requirement, in exact capacity. -/
theorem capacity_check_sound {additions : List Addition}
    (hadditions : Always extend ListsMembersOnce {} additions) {removing : List ResourceId}
    {numerator denominator : Nat}
    (hok : ((build additions).validateRemovalMany removing numerator denominator).ok = true)
    {pool : CapacityPool} (hpool : pool ∈ (build additions).capacityPools.toList) :
    applyHeadroom pool.required numerator denominator ≤
      (build additions).exactCapacity pool removing := by
  have hdistinct : (build additions).PoolsDistinct :=
    build_invariant (fun pool hpool => by cases hpool) (fun _ _ _ => PoolsDistinct.adds) hadditions
  obtain ⟨-, -, hkeeps⟩ := validateRemovalMany_ok.mp hok
  calc applyHeadroom pool.required numerator denominator
      ≤ (build additions).availablePoolCapacity pool ((build additions).outOfService ++ removing) :=
        hkeeps.pools pool hpool
    _ ≤ (build additions).exactCapacity pool removing :=
        availablePoolCapacity_le _ (hdistinct pool hpool) removing

namespace TwoPorts

/-- A port of capacity five. -/
def port (id : ResourceId) : ResourceNode := { target := { kind := .port, id }, capacity := 5 }

/-- Two ports and a pool over some of them. -/
def pooled (required : CapacityUnits) (members : List ResourceId) : List Addition :=
  [.resource (port "p1"), .resource (port "p2"), .pool { id := "ports", required, members }]

end TwoPorts

open TwoPorts in
theorem capacity_check_sound_twoPorts :
    applyHeadroom 5 1 1 ≤ (build (pooled 5 ["p1", "p2"])).exactCapacity
      { id := "ports", required := 5, members := ["p1", "p2"] } ["p2"] := by
  have hadditions : Always extend ListsMembersOnce {} (pooled 5 ["p1", "p2"]) := by decide
  have hok : ((build (pooled 5 ["p1", "p2"])).validateRemovalMany ["p2"] 1 1).ok = true := by
    decide
  have hpool : { id := "ports", required := 5, members := ["p1", "p2"] } ∈
      (build (pooled 5 ["p1", "p2"])).capacityPools.toList := by decide
  exact capacity_check_sound hadditions hok hpool

open TwoPorts in
/-- A pool over one port that is listed twice: removing the other port is accepted although
five units remain where ten are required. -/
theorem capacity_counted_twice :
    ((build (pooled 10 ["p1", "p1"])).validateRemovalMany ["p2"] 1 1).ok = true ∧
      { id := "ports", required := 10, members := ["p1", "p1"] } ∈
        (build (pooled 10 ["p1", "p1"])).capacityPools.toList ∧
      (build (pooled 10 ["p1", "p1"])).exactCapacity
        { id := "ports", required := 10, members := ["p1", "p1"] } ["p2"] <
          applyHeadroom 10 1 1 := by
  decide

namespace Topology

/-! ### Diversity -/

/-- `path_available`. -/
def pathAvailable (t : Topology) (pathId : ResourceId) : Bool :=
  match t.paths.find? pathId with
  | none => false
  | some path => path.hops.all (fun hop =>
    match t.resource hop with
    | none => false
    | some node => node.isInService)

/-- The topology with a set of resources marked unavailable. -/
def withdrawAll (t : Topology) (removing : List ResourceId) : Topology :=
  removing.foldl (fun t id =>
    match t.setStatus id .unavailable with
    | .ok t' => t'
    | .error _ => t) t

/-- The distinct member paths of a group that are available. -/
def availableMembers (t : Topology) (group : DiversityGroup) : Finset ResourceId :=
  group.paths.toFinset.filter (fun pathId => t.pathAvailable pathId = true)

theorem paths_withdrawAll (t : Topology) (removing : List ResourceId) :
    (t.withdrawAll removing).paths = t.paths := by
  induction removing generalizing t with
  | nil => rfl
  | cons id rest ih =>
    rw [withdrawAll, List.foldl_cons, ← withdrawAll, ih]
    cases h : t.setStatus id .unavailable with
    | error err => rfl
    | ok t' =>
      obtain ⟨node, -, rfl⟩ := setStatus_eq_ok.mp h
      rfl

/-- A resource that is not removed keeps its node. -/
theorem resource_withdrawAll {id : ResourceId} (hid : id ∉ removing) :
    (t.withdrawAll removing).resource id = t.resource id := by
  induction removing generalizing t with
  | nil => rfl
  | cons removed rest ih =>
    rw [withdrawAll, List.foldl_cons, ← withdrawAll, ih (fun h => hid (List.mem_cons_of_mem _ h))]
    cases h : t.setStatus removed .unavailable with
    | error err => rfl
    | ok t' =>
      rw [resource_setStatus h, if_neg]
      intro heq
      exact hid (heq ▸ List.mem_cons_self)

/-- A group is added with distinct paths, and a path over resources that are there. -/
def ListsKnownPathsOnce (t : Topology) : Addition → Prop
  | .path path => ∀ hop ∈ path.hops, (t.resource hop).isSome
  | .group group => group.paths.Nodup
  | _ => True

instance (t : Topology) : DecidablePred t.ListsKnownPathsOnce
  | .path path => inferInstanceAs (Decidable (∀ hop ∈ path.hops, (t.resource hop).isSome))
  | .group group => inferInstanceAs (Decidable group.paths.Nodup)
  | .resource _ | .edge _ _ | .pool _ | .route _ => inferInstanceAs (Decidable True)

/-- No group counts a path twice, and every hop is a resource of the topology. -/
structure Resolved (t : Topology) : Prop where
  distinct : ∀ group ∈ t.diversityGroups.toList, group.paths.Nodup
  known : ∀ path ∈ t.paths.toList, ∀ hop ∈ path.hops, (t.resource hop).isSome

theorem resolved_empty : Resolved {} :=
  ⟨fun _ hgroup => (by cases hgroup), fun _ hpath => (by cases hpath)⟩

theorem Resolved.adds {t t' : Topology} {a : Addition} (ht : t.Resolved)
    (ha : t.ListsKnownPathsOnce a) (h : Adds t a t') : t'.Resolved := by
  cases h with
  | @resource node hfree =>
    refine ⟨ht.distinct, fun path hpath hop hhop => ?_⟩
    show ((t.resources.put node).find? hop).isSome
    rw [Table.find?_put]
    split_ifs
    · rfl
    · exact ht.known path hpath hop hhop
  | path =>
    refine ⟨ht.distinct, fun path hpath => ?_⟩
    rcases mem_putList hpath with rfl | hold
    · exact ha
    · exact ht.known path hold
  | group =>
    refine ⟨fun group hgroup => ?_, ht.known⟩
    rcases mem_putList hgroup with rfl | hold
    · exact ha
    · exact ht.distinct group hold
  | edge _ => exact ⟨ht.distinct, ht.known⟩
  | pool => exact ⟨ht.distinct, ht.known⟩
  | route => exact ⟨ht.distinct, ht.known⟩

/-- A path without an excluded hop is available once the removal is carried out, provided
that its hops are known. -/
theorem Resolved.pathAvailable (ht : t.Resolved) {group : DiversityGroup} {pathId : ResourceId}
    (h : pathId ∈ t.availablePaths (t.outOfService ++ removing) group) :
    (t.withdrawAll removing).pathAvailable pathId = true := by
  obtain ⟨-, hclear⟩ := List.mem_filter.mp h
  rw [Topology.pathAvailable, paths_withdrawAll]
  cases hpath : t.paths.find? pathId with
  | none =>
    rw [hpath] at hclear
    cases hclear
  | some path =>
    simp only [hpath, List.all_eq_true] at hclear
    rw [List.all_eq_true]
    intro hop hhop
    have hout : hop ∉ t.outOfService ++ removing := by
      intro hmem
      have hfree := hclear hop hhop
      rw [List.contains_iff_mem.mpr hmem] at hfree
      cases hfree
    rw [List.mem_append, not_or] at hout
    obtain ⟨node, hnode⟩ :=
      Option.isSome_iff_exists.mp (ht.known path (Table.mem_of_find? hpath) hop hhop)
    rw [resource_withdrawAll hout.2, hnode]
    cases hin : node.isInService with
    | true => exact hin
    | false => exact absurd (mem_outOfService.mpr ⟨node, hnode, hin⟩) hout.1

end Topology

/-- In every topology built from groups that list distinct paths, over resources added before:
after an accepted removal every group has its required number of available paths. -/
theorem diversity_check_sound {additions : List Addition}
    (hadditions : Always extend ListsKnownPathsOnce {} additions) {removing : List ResourceId}
    {numerator denominator : Nat}
    (hok : ((build additions).validateRemovalMany removing numerator denominator).ok = true)
    {group : DiversityGroup} (hgroup : group ∈ (build additions).diversityGroups.toList) :
    group.requiredAvailable ≤
      (((build additions).withdrawAll removing).availableMembers group).card := by
  have hresolved : (build additions).Resolved :=
    build_invariant resolved_empty (fun _ _ _ => Resolved.adds) hadditions
  obtain ⟨-, -, hkeeps⟩ := validateRemovalMany_ok.mp hok
  have hnodup := (hresolved.distinct group hgroup).filter (fun pathId =>
    match (build additions).paths.find? pathId with
    | none => false
    | some path => path.hops.all (fun hop =>
      !((build additions).outOfService ++ removing).contains hop))
  calc group.requiredAvailable
      ≤ ((build additions).availablePaths ((build additions).outOfService ++ removing)
          group).length := hkeeps.groups group hgroup
    _ = ((build additions).availablePaths ((build additions).outOfService ++ removing)
          group).toFinset.card := (List.toFinset_card_of_nodup hnodup).symm
    _ ≤ (((build additions).withdrawAll removing).availableMembers group).card := by
        refine Finset.card_le_card (fun pathId hmem => ?_)
        rw [List.mem_toFinset] at hmem
        refine Finset.mem_filter.mpr ⟨?_, hresolved.pathAvailable hmem⟩
        exact List.mem_toFinset.mpr (List.mem_filter.mp hmem).1

namespace TwoPorts

/-- Two ports, a path over each of two lists of hops, and a group over some paths. -/
def grouped (first second : List ResourceId) (requiredAvailable : MemberCount)
    (paths : List ResourceId) : List Addition :=
  [.resource (port "p1"), .resource (port "p2"), .path { id := "a", hops := first },
    .path { id := "b", hops := second }, .group { id := "paths", requiredAvailable, paths }]

end TwoPorts

open TwoPorts in
theorem diversity_check_sound_twoPorts :
    1 ≤ (((build (grouped ["p1"] ["p2"] 1 ["a", "b"])).withdrawAll ["p2"]).availableMembers
      { id := "paths", requiredAvailable := 1, paths := ["a", "b"] }).card := by
  have hadditions : Always extend ListsKnownPathsOnce {} (grouped ["p1"] ["p2"] 1 ["a", "b"]) := by
    decide
  have hok : ((build (grouped ["p1"] ["p2"] 1 ["a", "b"])).validateRemovalMany ["p2"] 1 1).ok =
      true := by decide
  have hgroup : { id := "paths", requiredAvailable := 1, paths := ["a", "b"] } ∈
      (build (grouped ["p1"] ["p2"] 1 ["a", "b"])).diversityGroups.toList := by decide
  exact diversity_check_sound hadditions hok hgroup

open TwoPorts in
/-- Two ways to count a path that is not there. A hop nobody added is not out of service, so
its path counts as usable; and a group counts a path as often as it lists it. -/
theorem diversity_counted_wrong :
    (((build (grouped ["p1"] ["ghost"] 1 ["b"])).validateRemovalMany ["p2"] 1 1).ok = true ∧
      { id := "paths", requiredAvailable := 1, paths := ["b"] } ∈
        (build (grouped ["p1"] ["ghost"] 1 ["b"])).diversityGroups.toList ∧
      (((build (grouped ["p1"] ["ghost"] 1 ["b"])).withdrawAll ["p2"]).availableMembers
        { id := "paths", requiredAvailable := 1, paths := ["b"] }).card < 1) ∧
    ((build (grouped ["p1"] ["p2"] 2 ["a", "a"])).validateRemovalMany ["p2"] 1 1).ok = true ∧
      { id := "paths", requiredAvailable := 2, paths := ["a", "a"] } ∈
        (build (grouped ["p1"] ["p2"] 2 ["a", "a"])).diversityGroups.toList ∧
      (((build (grouped ["p1"] ["p2"] 2 ["a", "a"])).withdrawAll ["p2"]).availableMembers
        { id := "paths", requiredAvailable := 2, paths := ["a", "a"] }).card < 2 := by
  decide

end DrainFabric
