import DrainFabric.Engine.Snapshot
import DrainFabric.Lib.Run

/-!
# Runs of the engine

The events of a run are the public calls, the turns of single drains, and
restarts. A pass is the run of the turns of its drains (`advance_eq_run`), so a
history in terms of turns tells which drain changed what.

A restart restores the snapshot of the current state. Restoring an older snapshot,
or the snapshot of another engine, abandons the history of the receiver for the
one the snapshot was taken in: the result does not depend on the receiver
(`restore_eq`), and every state reachable by public operations is the end of a run
from an initial state (`Reachable.lineage`).
-/

namespace DrainFabric

open Lib

variable {q : EvacuationRequest} {e : Engine}

/-- The mutating public operations besides `advance` and `restore`. -/
inductive Call
  | setPolicy (policy : DrainPolicy) (now : TimePoint)
  | installIncarnation (incarnation : IncarnationId) (now : TimePoint)
  | installAuthorityLine (incarnation : IncarnationId) (epoch : Epoch) (now : TimePoint)
      (reason : String)
  | beginNewEpoch (incarnation : IncarnationId) (now : TimePoint) (reason : String)
  | issueAuthority (scope : DomainId) (validity : Duration) (now : TimePoint)
  | revokeAuthority (id : AuthorityId) (reason : String) (now : TimePoint)
  | addResource (node : ResourceNode) (now : TimePoint)
  | addEdge (a b : ResourceId) (now : TimePoint)
  | addPath (path : FabricPath) (now : TimePoint)
  | addDiversityGroup (group : DiversityGroup) (now : TimePoint)
  | addCapacityPool (pool : CapacityPool) (now : TimePoint)
  | addProtectedRoute (route : ProtectedRoute) (now : TimePoint)
  | reportResourceStatus (id : ResourceId) (status : ResourceStatus) (now : TimePoint)
  | admitObligation (draft : Obligation) (presented : Generation) (authority : AuthorityId)
      (now : TimePoint)
  | reportObligation (report : ObligationReport) (now : TimePoint)
  | recordEvidence (draft : Evidence) (now : TimePoint)
  | attestEvidence (key : EvidenceKey) (seq : EvidenceSeq) (now : TimePoint)
  | requestDrainSet (request : DrainRequest) (now : TimePoint)
  | requestDrain (request : DrainRequest) (now : TimePoint)
  | cancelDrain (id : DrainId) (authority : AuthorityId) (reason : String) (now : TimePoint)
  | restoreDrain (id : DrainId) (authority : AuthorityId) (reason : String) (now : TimePoint)
  | resumeDrain (id : DrainId) (authority : AuthorityId) (now : TimePoint)
  | grantException (id : DrainId) (obligation : ObligationId) (extension : Duration)
      (authority : AuthorityId) (now : TimePoint)

/-- The time an operation is called at. -/
def Call.time : Call → TimePoint
  | setPolicy _ now | installIncarnation _ now | installAuthorityLine _ _ now _
  | beginNewEpoch _ now _ | issueAuthority _ _ now | revokeAuthority _ _ now
  | addResource _ now | addEdge _ _ now | addPath _ now | addDiversityGroup _ now
  | addCapacityPool _ now | addProtectedRoute _ now | reportResourceStatus _ _ now
  | admitObligation _ _ _ now | reportObligation _ now | recordEvidence _ now
  | attestEvidence _ _ now | requestDrainSet _ now | requestDrain _ now
  | cancelDrain _ _ _ now | restoreDrain _ _ _ now | resumeDrain _ _ now
  | grantException _ _ _ _ now => now

/-- What can happen to the engine. -/
inductive Event
  | call (call : Call)
  /-- The share of one drain in a pass. -/
  | turn (id : DrainId) (now : TimePoint)
  /-- The engine is restored from the snapshot of its current state. -/
  | restart (previousIncarnation : IncarnationId) (now : TimePoint)

variable {C : Engine → Event → Prop}

def Event.time : Event → TimePoint
  | call c => c.time
  | turn _ now | restart _ now => now

/-- The mutating public operations, passes and restarts among them. -/
inductive Operation
  | call (call : Call)
  | advance (now : TimePoint)
  | restart (previousIncarnation : IncarnationId) (now : TimePoint)

namespace Engine

/-- The engine a call leaves behind. -/
def apply (e : Engine) : Call → Engine
  | .setPolicy policy now => (e.setPolicy policy now).1
  | .installIncarnation incarnation now => (e.installIncarnation incarnation now).1
  | .installAuthorityLine incarnation epoch now reason =>
    (e.installAuthorityLine incarnation epoch now reason).1
  | .beginNewEpoch incarnation now reason => (e.beginNewEpoch incarnation now reason).1
  | .issueAuthority scope validity now => (e.issueAuthority scope validity now).1
  | .revokeAuthority id reason now => (e.revokeAuthority id reason now).1
  | .addResource node now => (e.addResource node now).1
  | .addEdge a b now => (e.addEdge a b now).1
  | .addPath path now => (e.addPath path now).1
  | .addDiversityGroup group now => (e.addDiversityGroup group now).1
  | .addCapacityPool pool now => (e.addCapacityPool pool now).1
  | .addProtectedRoute route now => (e.addProtectedRoute route now).1
  | .reportResourceStatus id status now => (e.reportResourceStatus id status now).1
  | .admitObligation draft presented authority now =>
    (e.admitObligation draft presented authority now).1
  | .reportObligation report now => (e.reportObligation report now).1
  | .recordEvidence draft now => (e.recordEvidence draft now).1
  | .attestEvidence key seq now => (e.attestEvidence key seq now).1
  | .requestDrainSet request now => (e.requestDrainSet request now).1
  | .requestDrain request now => (e.requestDrain request now).1
  | .cancelDrain id authority reason now => (e.cancelDrain id authority reason now).1
  | .restoreDrain id authority reason now => (e.restoreDrain id authority reason now).1
  | .resumeDrain id authority now => (e.resumeDrain id authority now).1
  | .grantException id obligation extension authority now =>
    (e.grantException id obligation extension authority now).1

/-- The engine after one event. -/
def fire (e : Engine) : Event → Engine
  | .call c => e.apply c
  | .turn id now => (e.turn id now).1
  | .restart previousIncarnation now => (e.restore e.snapshot previousIncarnation now).1

/-- The engine after one public operation. -/
def perform (e : Engine) : Operation → Engine
  | .call c => e.apply c
  | .advance now => (e.advance now).1
  | .restart previousIncarnation now => (e.restore e.snapshot previousIncarnation now).1

/-- The turns a pass consists of. -/
def passTurns (e : Engine) (now : TimePoint) : List Event :=
  e.drains.keys.map (fun id => .turn id now)

/-- Every event the operation consists of meets `C`. -/
def Permits (C : Engine → Event → Prop) (e : Engine) : Operation → Prop
  | .call c => C e (.call c)
  | .advance now => Always fire C e (e.passTurns now)
  | .restart previousIncarnation now => C e (.restart previousIncarnation now)

instance {C : Engine → Event → Prop} [∀ e ev, Decidable (C e ev)] (e : Engine) :
    ∀ op, Decidable (Permits C e op)
  | .call c => inferInstanceAs (Decidable (C e (.call c)))
  | .advance now => inferInstanceAs (Decidable (Always fire C e (e.passTurns now)))
  | .restart prev now => inferInstanceAs (Decidable (C e (.restart prev now)))

/-- The states reachable by public operations, where every event meets `C` in the
state it happens in. A snapshot may come from any engine that was itself reached
this way, and may be restored into any engine. -/
inductive Reachable (C : Engine → Event → Prop) : Engine → Prop
  | init (policy : DrainPolicy) : Reachable C (Engine.init policy)
  | call {e : Engine} (c : Call) : Reachable C e → C e (.call c) → Reachable C (e.apply c)
  | advance {e : Engine} (now : TimePoint) : Reachable C e →
      Always fire C e (e.passTurns now) → Reachable C (e.advance now).1
  | restore {e source : Engine} (previousIncarnation : IncarnationId) (now : TimePoint) :
      Reachable C e → Reachable C source → C source (.restart previousIncarnation now) →
      Reachable C (e.restore source.snapshot previousIncarnation now).1

/-! ### The initial state -/

@[simp] theorem drain_init (policy : DrainPolicy) (id : DrainId) :
    (Engine.init policy).toWorld.drain id = none := rfl

@[simp] theorem find_init (policy : DrainPolicy) (id : ObligationId) :
    (Engine.init policy).toWorld.obligations.find id = none := rfl

/-! ### A pass is a run of turns -/

theorem foldl_passStep_fst (now : TimePoint) (ids : List DrainId) (acc : Engine × PendingActions) :
    (ids.foldl (passStep now) acc).1 = run fire acc.1 (ids.map (fun id => .turn id now)) := by
  induction ids generalizing acc with
  | nil => rfl
  | cons id rest ih => exact ih (passStep now acc id)

theorem advance_eq_run (e : Engine) (now : TimePoint) :
    (e.advance now).1 = run fire e (e.passTurns now) := by
  rw [advance, foldl_passStep_fst, passTurns]

/-- What every turn of a pass preserves, the pass preserves. -/
theorem advance_invariant {P : Engine → Prop} {e : Engine} {now : TimePoint}
    (hturn : ∀ e id, P e → P (e.turn id now).1) (he : P e) : P (e.advance now).1 := by
  rw [advance_eq_run]
  refine run_invariant (C := fun _ ev => ∃ id, ev = .turn id now) ?_ he
    (always_of_forall (fun ev hev _ => ?_) e)
  · rintro e ev hP ⟨id, rfl⟩
    exact hturn e id hP
  · obtain ⟨id, -, rfl⟩ := List.mem_map.mp hev
    exact ⟨id, rfl⟩

theorem mem_foldl_passStep {now : TimePoint} {ids : List DrainId} {acc : Engine × PendingActions}
    (h : q ∈ (ids.foldl (passStep now) acc).2.evacuations) :
    q ∈ acc.2.evacuations ∨ ∃ pre id post, ids = pre ++ id :: post ∧
      q ∈ ((run fire acc.1 (pre.map (fun id => .turn id now))).turn id now).2 := by
  induction ids generalizing acc with
  | nil => exact Or.inl h
  | cons id rest ih =>
    rcases ih h with hacc | ⟨pre, id', post, rfl, hq⟩
    · rcases List.mem_append.mp hacc with hacc | hq
      · exact Or.inl hacc
      · exact Or.inr ⟨[], id, rest, rfl, hq⟩
    · exact Or.inr ⟨id :: pre, id', post, rfl, hq⟩

/-- A request of a pass was issued in one of its turns. -/
theorem mem_advance_evacuations {now : TimePoint} (h : q ∈ (e.advance now).2.evacuations) :
    ∃ pre id post, e.passTurns now = pre ++ .turn id now :: post ∧
      q ∈ ((run fire e pre).turn id now).2 := by
  rw [advance] at h
  rcases mem_foldl_passStep h with h | ⟨pre, id, post, hids, hq⟩
  · simp at h
  · exact ⟨_, id, post.map (fun id => .turn id now), by rw [passTurns, hids]; simp, hq⟩

/-! ### Lineage -/

/-- A written snapshot carries a policy, so the receiver's is not read. -/
theorem decodeSnapshot_policy (source : Engine) (p p' : DrainPolicy) (prev : IncarnationId)
    (now : TimePoint) :
    decodeSnapshot p source.snapshot prev now = decodeSnapshot p' source.snapshot prev now := by
  have hpolicy : source.snapshot.find "policy" = some source.policy.toJson := by simp [snapshot]
  simp only [decodeSnapshot, snapshotPart, hpolicy]

/-- Restoring is refused and changes nothing, or has the same result in every engine. -/
theorem restore_eq (e source : Engine) (prev : IncarnationId) (now : TimePoint) :
    (e.restore source.snapshot prev now).1 = e ∨
      (e.restore source.snapshot prev now).1 = source.fire (.restart prev now) := by
  simp only [fire, restore]
  rw [decodeSnapshot_policy source e.policy source.policy]
  cases decodeSnapshot source.policy source.snapshot prev now with
  | error err => exact Or.inl rfl
  | ok recovered => exact Or.inr rfl

/-- Every reachable state is the end of a run from an initial state. -/
theorem Reachable.lineage (h : Reachable C e) :
    ∃ policy events, Always fire C (Engine.init policy) events ∧
      e = run fire (Engine.init policy) events := by
  induction h with
  | init policy => exact ⟨policy, [], trivial, rfl⟩
  | call c _ hc ih =>
    obtain ⟨policy, events, halways, rfl⟩ := ih
    refine ⟨policy, events ++ [.call c], always_append.mpr ⟨halways, hc, trivial⟩, ?_⟩
    rw [run_concat]
    rfl
  | advance now _ hc ih =>
    obtain ⟨policy, events, halways, rfl⟩ := ih
    exact ⟨policy, events ++ _, always_append.mpr ⟨halways, hc⟩,
      (advance_eq_run _ _).trans (run_append _ _ _).symm⟩
  | @restore e source prev now _ _ hc ih ihSource =>
    rcases restore_eq e source prev now with hsame | hrestart
    · rwa [hsame]
    · obtain ⟨policy, events, halways, rfl⟩ := ihSource
      refine ⟨policy, events ++ [.restart prev now],
        always_append.mpr ⟨halways, hc, trivial⟩, ?_⟩
      rw [hrestart, run_concat]

/-- A run of public operations ends in a reachable state. -/
theorem reachable_run (he : Reachable C e) {operations : List Operation}
    (h : Always perform (Permits C) e operations) : Reachable C (run perform e operations) := by
  refine run_invariant (P := Reachable C) (fun e op he hop => ?_) he h
  cases op with
  | call c => exact he.call c hop
  | advance now => exact he.advance now hop
  | restart prev now => exact he.restore prev now he hop

/-- What holds initially and is preserved by every allowed event holds in every
reachable state. -/
theorem Reachable.invariant {P : Engine → Prop} (hinit : ∀ policy, P (Engine.init policy))
    (hstep : ∀ e ev, P e → C e ev → P (e.fire ev)) (h : Reachable C e) : P e := by
  obtain ⟨policy, events, halways, rfl⟩ := h.lineage
  exact run_invariant hstep (hinit policy) halways

end Engine

/-! ### A fabric with one port -/

namespace OnePort

def port : DrainTarget := { kind := .port, id := "p1", domain := "d1" }

/-- A port of another domain. -/
def remote : DrainTarget := { kind := .port, id := "p0", domain := "d2" }

/-- A live line, one token and the port; then the port is asked to be drained. -/
def setup (now : TimePoint) : List Call :=
  [.installIncarnation 1 now, .issueAuthority "" 0 now,
    .addResource { target := port, capacity := 10 } now,
    .requestDrain { targets := [port], reason := "maintenance", authority := 1 } now]

/-- A protected flow over the port, admitted while the port was never fenced. -/
def admitFlow (now : TimePoint) : Call :=
  .admitObligation (Obligation.make .activeFlow "flow" [port]) 0 1 now

/-- A time after the grace of the flow. -/
def afterGrace : TimePoint := 2 * 3600 * second

/-- Turns of the drain of the port. -/
def turns (count : Nat) (now : TimePoint) : List Event := List.replicate count (.turn 1 now)

/-- The drain of the port after some passes. -/
def afterPasses (count : Nat) : Engine :=
  run Engine.perform (Engine.init {})
    ((setup 1).map .call ++ List.replicate count (.advance 1))

end OnePort

end DrainFabric
