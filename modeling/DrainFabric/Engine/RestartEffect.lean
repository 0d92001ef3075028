import DrainFabric.Codec.Topology
import DrainFabric.Engine.Recovery

/-!
# What a restart can do

The inversion of `restore` on a snapshot of the current state: the snapshot is
refused and nothing changes, or the state is `Recovered`. Every drain, fence entry,
obligation and resource is there again, up to what their encodings lose, and a
drain that was in the middle of something is blocked from where it stood.
-/

namespace DrainFabric

open Lib

/-- `r'` is what a restart recovers of `r`. -/
structure Restarted (r r' : DrainRecord) : Prop where
  id : r'.id = r.id
  target : r'.target = r.target
  generation : r'.generation = r.generation
  restoreGeneration : r'.restoreGeneration = r.restoreGeneration
  restoredAt : r'.restoredAt = persistedCount r.restoredAt
  phase : r'.phase = r.phase
  state : r'.state = if Engine.isTransient r.state then .blocked else r.state

/-- `w'` is what a restart recovers of `w`. -/
structure World.Recovered (w w' : World) : Prop where
  drain : ∀ id r, w.drain id = some r → ∃ r', Restarted r r' ∧ w'.drain id = some r'
  none : ∀ id, w.drain id = none → w'.drain id = none
  fence : w'.fence.entries =
    w.fence.entries.mapVals (fun p => (p.1, p.2.persisted)) (fun _ => rfl)
  obligations : w'.obligations.obligations =
    w.obligations.obligations.mapVals Obligation.persisted Obligation.persisted_id
  resources : w'.topology.resources = w.topology.resources

namespace World

/-- Every drain after a restart was there before. -/
theorem Recovered.of_drain {w w' : World} (h : Recovered w w') {id : DrainId} {r' : DrainRecord}
    (hr : w'.drain id = some r') : ∃ r, w.drain id = some r ∧ Restarted r r' := by
  cases hw : w.drain id with
  | none =>
    rw [h.none id hw] at hr
    cases hr
  | some r =>
    obtain ⟨r'', hrestart, hr''⟩ := h.drain id r hw
    rw [hr] at hr''
    obtain rfl := Option.some.inj hr''
    exact ⟨r, rfl, hrestart⟩

end World

namespace Engine

open World

/-- What a restart makes of one record. -/
theorem restarted_recoveredRecord (now : TimePoint) (r : DrainRecord) :
    Restarted r (recoveredRecord now r.reloaded) := by
  have hphase := phase_recoveredRecord now r.reloaded
  rw [recoveredRecord] at hphase ⊢
  split_ifs at hphase ⊢ with htransient
  · exact ⟨rfl, rfl, rfl, rfl, rfl, hphase, (if_pos htransient).symm⟩
  · exact ⟨rfl, rfl, rfl, rfl, rfl, rfl, (if_neg htransient).symm⟩

theorem decodeSnapshot_recovered {e recovered : Engine} {policy : DrainPolicy}
    {prev : IncarnationId} {now : TimePoint}
    (h : decodeSnapshot policy e.snapshot prev now = .ok recovered) :
    Recovered e.toWorld recovered.toWorld := by
  have hrec := decodeSnapshot_eq_ok.mp h
  refine ⟨fun id r hr => ⟨_, restarted_recoveredRecord now r, ?_⟩, fun id hid => ?_,
    (AdmissionFence.loadFromJson_eq_ok.mp hrec.fence).2,
    ObligationTable.loadFromJson_toJson hrec.obligations,
    Topology.loadFromJson_toJson hrec.topology⟩
  · rw [hrec.drain, hr]
    rfl
  · rw [hrec.drain, hid]
    rfl

/-- What a restart can do. -/
theorem restart_effect (e : Engine) (prev : IncarnationId) (now : TimePoint) :
    e.fire (.restart prev now) = e ∨
      Recovered e.toWorld (e.fire (.restart prev now)).toWorld := by
  simp only [fire, restore]
  cases h : decodeSnapshot e.policy e.snapshot prev now with
  | error err => exact Or.inl rfl
  | ok recovered =>
    have hrecovered := decodeSnapshot_recovered h
    exact Or.inr hrecovered

end Engine

end DrainFabric
