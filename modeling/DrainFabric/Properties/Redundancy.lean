import DrainFabric.Commitments
import DrainFabric.Engine.Frame

/-!
# Redundancy

The commitments of the topology are checked at two places: for the whole set when it
is requested, and for each resource again right before it leaves service.

The second check is the one that counts. A pass validates its removals one at a time,
each against the topology the earlier ones left behind, and a restoring drain no longer
owns its removal, so nothing in the pass puts a resource back.

The first check is made only when the topology knows every target of the set.

* `removing_pass_intact` — a pass that takes a resource out of service leaves every
  commitment intact;
* `set_admission` — an accepted set is removable as a whole, unless it mixes known and
  unknown targets; for such a set no commitment is looked at;
* `set_admission_fails` — a mixed set that is admitted against a commitment.
-/

namespace DrainFabric

open Lib World Engine

variable {w : World} {now : TimePoint} {e : Engine} {targets : List DrainTarget}

/-! ### A removing pass -/

namespace World

/-- The removal step of a drain, seen by the topology. -/
def Withdraws (w : World) (topology : Topology) : Prop :=
  ∃ r : DrainRecord, (w.removalViolation r).ok = true ∧
    w.topology.setStatus r.target.id .unavailable = .ok topology

theorem Withdraws.intact {topology : Topology} (h : w.Withdraws topology) :
    topology.Intact w.policy.capacityHeadroomNumerator w.policy.capacityHeadroomDenominator := by
  obtain ⟨r, hok, hset⟩ := h
  exact Topology.intact_of_validateRemoval hok hset

/-- The topology changes in the removal step, and when a restoring drain still owns a
removal. -/
theorem Act.topology {r : DrainRecord} {w' : World} {requests : List EvacuationRequest}
    (h : Act now r w w' requests) :
    w'.topology = w.topology ∨ w.Withdraws w'.topology ∨
      (r.phase = .restoring ∧ w.removalOwnedBy r = true) := by
  cases h with
  | removed _ _ _ _ _ hok hset => exact Or.inr (Or.inl ⟨r, hok, hset⟩)
  | settled _ hs htopology =>
    rcases htopology with rfl | ⟨howned, -⟩
    · exact Or.inl rfl
    · exact Or.inr (Or.inr ⟨DrainRecord.phase_of_state hs (by decide), howned⟩)
  | settleFailed hs _ htopology =>
    rcases htopology with rfl | ⟨howned, -⟩
    · exact Or.inl rfl
    · exact Or.inr (Or.inr ⟨DrainRecord.phase_of_state hs (by decide), howned⟩)
  | _ => exact Or.inl rfl

end World

namespace Engine

/-- A turn leaves the topology alone or performs one validated removal. -/
theorem turn_topology (inv : Fenced e.toWorld) (id : DrainId) (now : TimePoint) :
    (e.turn id now).1.topology = e.topology ∨ e.Withdraws (e.turn id now).1.topology := by
  rcases turn_effect e id now with ⟨heq, -⟩ | ⟨r, r₁, evidence, w₁, hr, -, held, hw₁, hact⟩
  · exact Or.inl (by rw [heq])
  have htopology : w₁.topology = e.topology := by rw [hw₁]; rfl
  rcases hact with ⟨hworld, -⟩ | hact
  · exact Or.inl (by rw [hworld, htopology])
  rcases hact.topology with hsame | ⟨q, hok, hset⟩ | ⟨hphase, howned⟩
  · exact Or.inl (hsame.trans htopology)
  · refine Or.inr ⟨q, ?_, ?_⟩
    · rw [hw₁] at hok
      exact hok
    · rw [← htopology]
      exact hset
  · -- A restoring drain does not hold its fence, so it owns no removal.
    obtain ⟨-, entry, hentry, hclosed, hdrain⟩ := removalOwnedBy_iff.mp howned
    have hnot := inv.restoring id r hr (held.hold.phase.symm.trans hphase)
    rw [hw₁, held.hold.target] at hentry
    exact absurd ⟨entry, hentry, hclosed, hdrain.trans (held.hold.id.trans (id_of_drain hr))⟩ hnot

end Engine

/-- A removing pass leaves every commitment intact: pools, diversity groups and
protected routes, each measured as `validate_removal_many` measures it. -/
theorem removing_pass_intact {C : Engine → Event → Prop} {e : Engine} (he : Reachable C e)
    (now : TimePoint) {id : ResourceId} {node node' : ResourceNode}
    (hbefore : e.topology.resource id = some node) (hin : node.status = .inService)
    (hafter : (e.advance now).1.topology.resource id = some node')
    (hout : node'.status = .unavailable) :
    (e.advance now).1.topology.Intact e.policy.capacityHeadroomNumerator
      e.policy.capacityHeadroomDenominator := by
  -- Up to any turn of the pass nothing was removed, or the commitments are intact.
  let P := fun s : Engine => Fenced s.toWorld ∧ s.policy = e.policy ∧
    (s.topology = e.topology ∨ s.topology.Intact e.policy.capacityHeadroomNumerator
      e.policy.capacityHeadroomDenominator)
  have hpass : P (e.advance now).1 := by
    refine advance_invariant ?_ ⟨he.fenced, rfl, Or.inl rfl⟩
    rintro s other ⟨inv, hpolicy, htopology⟩
    refine ⟨fenced_fire s (.turn other now) inv,
      (turn_frame s other now).policy.trans hpolicy, ?_⟩
    rcases turn_topology inv other now with hsame | hwithdraws
    · rwa [hsame]
    · right
      rw [← hpolicy]
      exact hwithdraws.intact
  rcases hpass.2.2 with hsame | hintact
  · rw [hsame, hbefore] at hafter
    rw [← Option.some.inj hafter, hin] at hout
    cases hout
  · exact hintact

namespace TwoPorts

def first : DrainTarget := { kind := .port, id := "p1", domain := "d1" }

def second : DrainTarget := { kind := .port, id := "p2", domain := "d2" }

def uplink : DrainTarget := { kind := .port, id := "up", domain := "d3" }

/-- Two ports with an uplink. Either port may be drained, but not both. -/
def fabric (now : TimePoint) : List Call :=
  [.installIncarnation 1 now, .issueAuthority "" 0 now,
    .addResource { target := first, capacity := 10 } now,
    .addResource { target := second, capacity := 10 } now,
    .addResource { target := uplink, capacity := 10 } now,
    .addEdge "p1" "up" now, .addEdge "p2" "up" now,
    .addPath { id := "via-p1", hops := ["p1", "up"] } now,
    .addPath { id := "via-p2", hops := ["p2", "up"] } now,
    .addDiversityGroup { id := "paths", requiredAvailable := 1, paths := ["via-p1", "via-p2"] } now,
    .addCapacityPool { id := "ports", required := 10, members := ["p1", "p2"] } now,
    .addProtectedRoute { id := "route", origin := "p2", terminus := "up" } now]

/-- The drain of the first port after some passes. -/
def drainFirst (passes : Nat) : Engine :=
  run Engine.perform (Engine.init {})
    ((fabric 1 ++ [Call.requestDrain { targets := [first], authority := 1 } 1]).map .call ++
      List.replicate passes (.advance 1))

end TwoPorts

/-- The fourth pass removes the first port. -/
theorem removing_pass_intact_twoPorts :
    ((TwoPorts.drainFirst 3).advance 1).1.topology.Intact
      (TwoPorts.drainFirst 3).policy.capacityHeadroomNumerator
      (TwoPorts.drainFirst 3).policy.capacityHeadroomDenominator := by
  have hreach : Reachable (fun _ _ => True) (TwoPorts.drainFirst 3) :=
    reachable_run (.init {}) (by decide +kernel)
  have hbefore : ((TwoPorts.drainFirst 3).topology.resource "p1").any
      (fun node => node.status = .inService) = true := by
    decide +kernel
  have hafter : (((TwoPorts.drainFirst 3).advance 1).1.topology.resource "p1").any
      (fun node => node.status = .unavailable) = true := by
    decide +kernel
  obtain ⟨node, hnode, hin⟩ := (Option.any_eq_true _ _).mp hbefore
  obtain ⟨node', hnode', hout⟩ := (Option.any_eq_true _ _).mp hafter
  exact removing_pass_intact hreach 1 hnode (by simpa using hin) hnode' (by simpa using hout)

/-! ### Admission of a set -/

namespace World

/-- Does the topology know the target? -/
def knows (w : World) (target : DrainTarget) : Bool := (w.topology.resource target.id).isSome

/-- The resources behind the targets that the topology knows. -/
def knownTargets (w : World) (targets : List DrainTarget) : List ResourceId :=
  sortUnique (fun a b : ResourceId => decide (a < b)) ((targets.filter w.knows).map DrainTarget.id)

/-- Taking every known target out of service at once violates no commitment. -/
def SetRemovable (w : World) (targets : List DrainTarget) : Prop :=
  w.knownTargets targets = [] ∨
    (w.topology.validateRemovalMany (w.knownTargets targets) w.policy.capacityHeadroomNumerator
      w.policy.capacityHeadroomDenominator).ok = true

instance (w : World) (targets : List DrainTarget) : Decidable (w.SetRemovable targets) :=
  inferInstanceAs (Decidable (_ ∨ _))

/-- The topology knows every target of the set, or none. -/
def Unmixed (w : World) (targets : List DrainTarget) : Prop :=
  (∀ target ∈ targets, w.knows target = true) ∨ ∀ target ∈ targets, w.knows target = false

instance (w : World) (targets : List DrainTarget) : Decidable (w.Unmixed targets) :=
  inferInstanceAs (Decidable (_ ∨ _))

end World

/-- The request is accepted and creates the set. -/
structure Creates (e : Engine) (request : DrainRequest) (now : TimePoint) (set : DrainSet) :
    Prop where
  accepted : (e.requestDrainSet request now).2 = .ok set.id
  fresh : e.sets.find? set.id = none
  created : (e.requestDrainSet request now).1.sets.find? set.id = some set

namespace Engine

/-- The engine over another topology. -/
def withTopology (e : Engine) (topology : Topology) : Engine := { e with topology }

theorem ownedTarget_withTopology (e : Engine) (topology : Topology) (targets : List DrainTarget) :
    ownedTarget (e.withTopology topology).toWorld targets = ownedTarget e.toWorld targets := by
  induction targets with
  | nil => rfl
  | cons target rest ih =>
    simp only [ownedTarget, ih]
    rfl

/-- The set a request would create, if the ids suffice. -/
def newSet (e : Engine) (request : DrainRequest) (targets : List DrainTarget) (now : TimePoint) :
    Option DrainSet :=
  (incrementChecked e.setHighWater).bind (fun setId =>
    (createDrains request setId (truncate request.reason) now { e with setHighWater := setId } []
      targets).2.map (fun members =>
        { id := setId, reason := truncate request.reason, requestedAt := now,
          authority := request.authority, nonce := request.nonce, targets, members }))

theorem newSet_eq (e : Engine) (request : DrainRequest) (targets : List DrainTarget)
    (now : TimePoint) : e.newSet request targets now =
      if e.setHighWater < u64Max ∧ (targets = [] ∨ e.drainHighWater + targets.length ≤ u64Max)
        then some (e.nextSet request targets now) else none := by
  rw [newSet, incrementChecked_eq]
  by_cases hid : e.setHighWater < u64Max
  · obtain ⟨made, rest, rfl, hlast, -, ⟨hnone, hrest, hfull⟩ | ⟨rfl, hsome⟩⟩ :=
      createDrains_eq request (e.setHighWater + 1) now
        { e with setHighWater := e.setHighWater + 1 } [] targets
    · have hnot : ¬ (made ++ rest = [] ∨ e.drainHighWater + (made ++ rest).length ≤ u64Max) := by
        rintro (hnil | hroom)
        · exact hrest (List.append_eq_nil_iff.mp hnil).2
        · exact absurd hfull (Nat.not_lt.mpr hroom)
      rw [if_pos hid, Option.bind_some, hnone, if_neg (fun h => hnot h.2)]
      rfl
    · rw [List.append_nil] at hsome ⊢
      rw [if_pos hid, Option.bind_some, hsome,
        if_pos ⟨hid, (eq_or_ne made []).imp_right hlast⟩]
      rfl
  · rw [if_neg hid, if_neg (fun h => hid h.1)]
    rfl

theorem newSet_withTopology (e : Engine) (topology : Topology) (request : DrainRequest)
    (targets : List DrainTarget) (now : TimePoint) :
    (e.withTopology topology).newSet request targets now = e.newSet request targets now := by
  rw [newSet_eq, newSet_eq]
  rfl

theorem find_newSet (hfresh : e.sets.find? (e.setHighWater + 1) = none) (request : DrainRequest)
    (targets : List DrainTarget) (now : TimePoint) :
    ((e.withDrains request targets now).withSet (e.nextSet request targets now)).sets.find?
      (e.setHighWater + 1) = some (e.nextSet request targets now) := by
  have hnone : (e.withDrains request targets now).sets.find? (e.setHighWater + 1) = none := hfresh
  rw [find?_withSet, hnone, Option.none_or]
  exact if_pos rfl

end Engine

/-- A request that creates a set passed every check, and the set names its targets. -/
theorem Creates.admissible {request : DrainRequest} {set : DrainSet}
    (h : Creates e request now set) :
    e.Admissible request set.targets now ∧ e.newSet request set.targets now = some set := by
  obtain ⟨haccepted, hfresh, hcreated⟩ := h
  rcases requestDrainSet_ok haccepted with ⟨-, hreplay⟩ | ⟨targets, hadm, hset, hroom, hid, hworld⟩
  · obtain ⟨old, hold, -⟩ := hreplay.same
    rw [hfresh] at hold
    cases hold
  · rw [hid] at hfresh
    rw [hworld, hid, find_newSet hfresh request targets now] at hcreated
    obtain rfl := Option.some.inj hcreated
    refine ⟨hadm, ?_⟩
    rw [newSet_eq, if_pos ⟨hset, Or.inr hroom⟩]
    rfl

theorem Creates.of_admissible {request : DrainRequest} {set : DrainSet}
    (hadm : e.Admissible request set.targets now)
    (hnew : e.newSet request set.targets now = some set) (hfresh : e.sets.find? set.id = none) :
    Creates e request now set := by
  have hrequest := requestDrainSet_of_admissible hadm
  rw [newSet_eq] at hnew
  split_ifs at hnew with hroom
  have hnew := Option.some.inj hnew
  have hid : e.setHighWater + 1 = set.id := congrArg DrainSet.id hnew
  rw [← hid] at hfresh
  rcases createDrainSet_cases hadm with ⟨hfull, -⟩ | ⟨-, hfull, -⟩ | ⟨-, -, hworld, hok⟩
  · exact absurd hroom.1 (Nat.not_lt.mpr hfull)
  · exact absurd (hroom.2.resolve_left (normalizeTargets_ne_nil hadm.normalized))
      (Nat.not_le.mpr hfull)
  · refine ⟨by rw [hrequest, hok, hid], hid ▸ hfresh, ?_⟩
    rw [hrequest, hworld, ← hid, find_newSet hfresh request set.targets now, hnew]

namespace World

theorem mem_knownTargets {id : ResourceId} :
    id ∈ w.knownTargets targets ↔ ∃ target ∈ targets, w.knows target = true ∧ target.id = id := by
  rw [knownTargets, mem_sortUnique]
  simp [and_assoc]

/-- When every target is known, the check is `validate_removal_many` of all of them. -/
theorem correlatedViolation_of_known (h : ∀ target ∈ targets, w.knows target = true) :
    correlatedViolation w targets = w.topology.validateRemovalMany (w.knownTargets targets)
      w.policy.capacityHeadroomNumerator w.policy.capacityHeadroomDenominator := by
  have hall : targets.all (fun target => (w.topology.resource target.id).isSome) = true :=
    List.all_eq_true.mpr h
  have hfilter : targets.filter w.knows = targets := List.filter_eq_self.mpr h
  rw [correlatedViolation, if_pos hall, knownTargets, hfilter]

/-- It is not made at all when one is unknown. -/
theorem correlatedViolation_of_unknown {target : DrainTarget} (hmem : target ∈ targets)
    (h : w.knows target = false) : correlatedViolation w targets = {} := by
  refine if_neg (fun hall => ?_)
  have := List.all_eq_true.mp hall target hmem
  rw [knows] at h
  rw [h] at this
  cases this

end World

/-- A commitment to one resource: a diversity group with a single path over it. -/
def Topology.committed (t : Topology) (id : ResourceId) : Topology :=
  { t with paths := t.paths.put { id := "only", hops := [id] },
           diversityGroups := t.diversityGroups.put
             { id := "guard", requiredAvailable := 1, paths := ["only"] } }

/-- No removal of the resource keeps the commitment. -/
theorem Topology.not_keeps_committed {t : Topology} {id : ResourceId} {excluded : List ResourceId}
    {numerator denominator : Nat} (h : id ∈ excluded) :
    ¬ (t.committed id).Keeps excluded numerator denominator := by
  intro hkeeps
  have hgroup := hkeeps.groups { id := "guard", requiredAvailable := 1, paths := ["only"] }
    (Table.mem_of_find? (Table.find?_put_self _ _))
  have hpath : (t.committed id).paths.find? "only" = some { id := "only", hops := [id] } :=
    Table.find?_put_self t.paths { id := "only", hops := [id] }
  simp [availablePaths, hpath, h] at hgroup

/-- Set-level admission. A request that creates a set of targets all of which, or none
of which, the topology knows was checked as a whole: taking out every known target at
once violates nothing. A set that mixes the two is not checked: over the same resources
there are commitments under which the same request creates the same set, although
taking out its known targets violates one of them. -/
theorem set_admission {e : Engine} {request : DrainRequest} {now : TimePoint} {set : DrainSet}
    (h : Creates e request now set) :
    (e.Unmixed set.targets → e.SetRemovable set.targets) ∧
      (¬ e.Unmixed set.targets → ∃ topology, topology.resources = e.topology.resources ∧
        Creates (e.withTopology topology) request now set ∧
        ¬ (e.withTopology topology).SetRemovable set.targets) := by
  obtain ⟨hadm, hnew⟩ := h.admissible
  constructor
  · rintro (hknown | hunknown)
    · right
      rw [← correlatedViolation_of_known hknown]
      exact hadm.removable
    · left
      rw [List.eq_nil_iff_forall_not_mem]
      intro id hid
      obtain ⟨target, hmem, hknows, -⟩ := mem_knownTargets.mp hid
      rw [hunknown target hmem] at hknows
      cases hknows
  · intro hmixed
    simp only [Unmixed, not_or, not_forall, Bool.not_eq_true, Bool.not_eq_false] at hmixed
    obtain ⟨⟨unknown, hunknown, hnot⟩, known, hknown, hknows⟩ := hmixed
    generalize htopology : e.topology.committed known.id = topology
    have hresources : topology.resources = e.topology.resources := by rw [← htopology]; rfl
    have hsame : ∀ target, (e.withTopology topology).knows target = e.knows target := by
      intro target
      show (topology.resources.find? target.id).isSome = _
      rw [hresources]
      rfl
    refine ⟨topology, hresources, ?_, ?_⟩
    · refine .of_admissible ⟨hadm.normalized, hadm.authorized, hadm.members, hadm.room,
        hadm.unused, ?_, ?_, hadm.spread⟩ ?_ h.fresh
      · rw [ownedTarget_withTopology]
        exact hadm.free
      · rw [correlatedViolation_of_unknown hunknown ((hsame unknown).trans hnot)]
        rfl
      · rw [newSet_withTopology]
        exact hnew
    · have hmem : known.id ∈ (e.withTopology topology).knownTargets set.targets :=
        mem_knownTargets.mpr ⟨known, hknown, (hsame known).trans hknows, rfl⟩
      subst htopology
      rintro (hnone | hok)
      · rw [hnone] at hmem
        cases hmem
      · obtain ⟨-, -, hkeeps⟩ := Topology.validateRemovalMany_ok.mp hok
        exact Topology.not_keeps_committed (List.mem_append_right _ hmem) hkeeps

namespace TwoPorts

/-- The fabric, nothing requested yet. -/
def idle : Engine := run Engine.perform (Engine.init {}) ((fabric 1).map .call)

def request (targets : List DrainTarget) : DrainRequest := { targets, authority := 1 }

/-- A port the fabric does not have. -/
def ghost : DrainTarget := { kind := .port, id := "p9", domain := "d9" }

/-- The set the fabric creates for the targets. -/
def set (targets : List DrainTarget) (members : List DrainId) : DrainSet :=
  { id := 1, requestedAt := 1, authority := 1, targets, members }

end TwoPorts

/-- One port may go. -/
theorem set_admission_twoPorts : TwoPorts.idle.SetRemovable [TwoPorts.first] := by
  have hcreates : Creates TwoPorts.idle (TwoPorts.request [TwoPorts.first]) 1
      (TwoPorts.set [TwoPorts.first] [1]) :=
    ⟨by decide +kernel, by decide +kernel, by decide +kernel⟩
  exact (set_admission hcreates).1 (by decide +kernel)

/-- Both ports together may not, and asked for together they are refused; with a port
the fabric does not know they are admitted. -/
theorem set_admission_fails :
    (TwoPorts.idle.requestDrainSet (TwoPorts.request [TwoPorts.first, TwoPorts.second]) 1).2 ≠
        .ok 1 ∧
      Creates TwoPorts.idle
        (TwoPorts.request [TwoPorts.first, TwoPorts.second, TwoPorts.ghost]) 1
        (TwoPorts.set [TwoPorts.first, TwoPorts.second, TwoPorts.ghost] [1, 2, 3]) ∧
      ¬ TwoPorts.idle.SetRemovable [TwoPorts.first, TwoPorts.second, TwoPorts.ghost] :=
  ⟨by decide +kernel, ⟨by decide +kernel, by decide +kernel, by decide +kernel⟩,
    by decide +kernel⟩

end DrainFabric
