import DrainFabric.Engine.Frame

/-!
# Restoration

Restoration has two halves. `restore_drain` reopens the fence, and a later pass puts
the resource back in service and settles the drain, if the drain owns the removal.
Ownership is read off a fence that the drain has closed, and the first half has just
opened it: so the second half never finds the drain to be the owner.

* `restoration_out_of_service` — a drain that removed its resource settles with the
  resource out of service, unless somebody else reports a status for it;
* `restoration_fails` — a run that ends there.
-/

namespace DrainFabric

open Lib World Engine

/-- The resource an event reports a status for. -/
def Event.reportedResource : Event → Option ResourceId
  | .call (.reportResourceStatus id _ _) => some id
  | _ => none

/-- The turn of the drain at `now` is its removal step: it takes the resource of the
target out of service. -/
def Engine.Removes (e : Engine) (id : DrainId) (now : TimePoint) (target : DrainTarget) : Prop :=
  (∃ r node, e.drain id = some r ∧ r.target = target ∧
    e.topology.resource target.id = some node ∧ node.status = .inService) ∧
  (e.turn id now).1.OutOfService target.id

/-- The turn of the drain at `now` settles it: it was being restored, and is cancelled
and restored now. -/
def Engine.Settles (e : Engine) (id : DrainId) (now : TimePoint) (target : DrainTarget) : Prop :=
  (∃ r, e.drain id = some r ∧ r.phase = .restoring) ∧
  ∃ r, (e.turn id now).1.drain id = some r ∧ r.target = target ∧ r.state = .cancelled ∧
    r.restoredAt = now

/-- Without status reports a resource that is out of service stays so. -/
theorem outOfService_run {e : Engine} {events : List Event} {id : ResourceId}
    (inv : Fenced e.toWorld) (hquiet : ∀ ev ∈ events, ev.reportedResource ≠ some id)
    (hout : e.OutOfService id) : (run fire e events).OutOfService id :=
  (run_invariant (P := fun e : Engine => Fenced e.toWorld ∧ e.OutOfService id)
    (C := fun _ ev => ev.reportedResource ≠ some id)
    (fun e ev ⟨inv, hout⟩ hev => ⟨fenced_fire e ev inv,
      outOfService_step inv (fire_resourceStep e ev)
        (fun _ _ h => hev (by rw [h]; rfl)) hout⟩)
    ⟨inv, hout⟩ (always_of_forall (fun ev hev _ => hquiet ev hev) e)).2

/-- In every run: when a drain that performed its removal step settles, and no status
was reported for its resource in between, the resource is out of service; it is not
the case that it is in service with its admission open. -/
theorem restoration_out_of_service {C : Engine → Event → Prop} {e e' : Engine}
    (he : Reachable C e) {id : DrainId} {target : DrainTarget} {removal settlement : TimePoint}
    (hremoves : e.Removes id removal target) {between : List Event}
    (hquiet : ∀ ev ∈ between, ev.reportedResource ≠ some target.id)
    (hbetween : run fire (e.turn id removal).1 between = e')
    (hsettles : e'.Settles id settlement target) :
    ∃ r, (e'.turn id settlement).1.drain id = some r ∧ r.state = .cancelled ∧
      r.restoredAt = settlement ∧ (e'.turn id settlement).1.OutOfService r.target.id ∧
      ¬ ((∃ node, (e'.turn id settlement).1.topology.resource r.target.id = some node ∧
          node.status = .inService) ∧
        (e'.turn id settlement).1.fence.isClosed r.target = false) := by
  obtain ⟨-, r, hr, rfl, hcancelled, hat⟩ := hsettles
  have hfenced : Fenced (e.turn id removal).1.toWorld := fenced_fire e (.turn id removal) he.fenced
  have hout : (e'.turn id settlement).1.OutOfService r.target.id := by
    have hbefore := outOfService_run hfenced hquiet hremoves.2
    have inv := fenced_run hfenced between
    rw [hbetween] at hbefore inv
    exact outOfService_step inv (fire_resourceStep e' (.turn id settlement)) (by simp) hbefore
  refine ⟨r, hr, hcancelled, hat, hout, ?_⟩
  rintro ⟨⟨node, hnode, hservice⟩, -⟩
  obtain ⟨node', hnode', hunavailable⟩ := hout
  obtain rfl := Option.some.inj (hnode.symm.trans hnode')
  cases hservice.symm.trans hunavailable

/-- The drained port is asked to be restored. -/
def OnePort.restoredPort : List Event :=
  [.turn 1 1, .call (.restoreDrain 1 1 "back" 1)]

theorem restoration_out_of_service_onePort :
    ∃ r, ((run fire ((OnePort.afterPasses 3).turn 1 1).1 OnePort.restoredPort).turn 1 1).1.drain 1
        = some r ∧ r.state = .cancelled ∧ r.restoredAt = 1 ∧
      ((run fire ((OnePort.afterPasses 3).turn 1 1).1 OnePort.restoredPort).turn 1 1).1.OutOfService
        r.target.id := by
  have hreach : Reachable (fun _ _ => True) (OnePort.afterPasses 3) :=
    reachable_run (.init {}) (by decide +kernel)
  have hpast : ((OnePort.afterPasses 3).drain 1).any (fun r => r.target = OnePort.port) = true ∧
      ((OnePort.afterPasses 3).topology.resource "p1").any
        (fun node => node.status = .inService) = true ∧
      (((OnePort.afterPasses 3).turn 1 1).1.topology.resource "p1").any
        (fun node => node.status = .unavailable) = true := by
    decide +kernel
  have hends : ((run fire ((OnePort.afterPasses 3).turn 1 1).1 OnePort.restoredPort).drain 1).any
        (fun r => r.phase = .restoring) = true ∧
      ((((run fire ((OnePort.afterPasses 3).turn 1 1).1 OnePort.restoredPort).turn 1 1).1.drain
        1).any (fun r => r.target = OnePort.port ∧ r.state = .cancelled ∧ r.restoredAt = 1)) =
        true := by
    decide +kernel
  simp only [Option.any_eq_true, decide_eq_true_eq] at hpast hends
  obtain ⟨⟨r, hr, htarget⟩, ⟨node, hnode, hservice⟩, hout⟩ := hpast
  have hremoves : (OnePort.afterPasses 3).Removes 1 1 OnePort.port :=
    ⟨⟨r, node, hr, htarget, hnode, hservice⟩, hout⟩
  obtain ⟨r', hr', hcancelled, hat, hend, -⟩ := restoration_out_of_service hreach hremoves
    (by decide +kernel) rfl hends
  exact ⟨r', hr', hcancelled, hat, hend⟩

/-- A port that was drained and restored: its admission is open, its drain settled,
and the port itself still out of service. -/
theorem restoration_fails :
    ((run fire ((OnePort.afterPasses 3).turn 1 1).1 OnePort.restoredPort).drain 1).map
        DrainRecord.state = some .restoring ∧
      ((run fire ((OnePort.afterPasses 3).turn 1 1).1
        (OnePort.restoredPort ++ [.turn 1 1])).drain 1).map
        (fun r => (r.state, r.restoredAt)) = some (.cancelled, 1) ∧
      ((run fire ((OnePort.afterPasses 3).turn 1 1).1
        (OnePort.restoredPort ++ [.turn 1 1])).fence.isClosed OnePort.port) = false ∧
      ((OnePort.afterPasses 3).topology.resource "p1").map ResourceNode.status =
        some .inService ∧
      (((OnePort.afterPasses 3).turn 1 1).1.topology.resource "p1").map ResourceNode.status =
        some .unavailable ∧
      ((run fire ((OnePort.afterPasses 3).turn 1 1).1
        (OnePort.restoredPort ++ [.turn 1 1])).topology.resource "p1").map ResourceNode.status =
        some .unavailable := by
  decide +kernel

end DrainFabric
