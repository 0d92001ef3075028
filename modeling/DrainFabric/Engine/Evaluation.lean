import DrainFabric.Engine.TurnEffect
import Mathlib.Data.List.TakeWhile

/-!
# What an evaluation reads

The evaluations of a drain (`evaluate_start` … `evaluate_verification`) look at its
record, at the components of the state, and at the other drains. None of them looks
at the state of the record itself: a drain is evaluated alike while it is blocked and
after it was resumed. Of another drain they see its standing only.

* `DrainRecord.Alike` — what an evaluation reads of the drain's own record;
* `World.Peers` — what it reads of everything else;
* `evaluateState_congr` — an evaluation depends on nothing more;
* `recordRemovalEvidence_congr` — nor does the observation of the removal.
-/

namespace DrainFabric

open Lib

/-- What the evaluation of a drain reads of its own record. -/
structure DrainRecord.Alike (r r' : DrainRecord) : Prop where
  id : r'.id = r.id
  set : r'.set = r.set
  target : r'.target = r.target
  generation : r'.generation = r.generation
  authority : r'.authority = r.authority
  admissionClosedAt : r'.admissionClosedAt = r.admissionClosedAt
  evacuationRequests : r'.evacuationRequests = r.evacuationRequests

theorem DrainRecord.Alike.refl (r : DrainRecord) : r.Alike r :=
  ⟨rfl, rfl, rfl, rfl, rfl, rfl, rfl⟩

theorem DrainRecord.alike_moved (r : DrainRecord) {next : DrainState}
    (h : next ≠ .admissionClosed) (now : TimePoint) (detail : String) :
    r.Alike (r.moved next now detail) :=
  ⟨rfl, rfl, rfl, rfl, rfl, if_neg h, rfl⟩

namespace World

/-- What the evaluation of one drain reads of another. -/
def standing (r : DrainRecord) : DomainId × Bool × Bool × Bool :=
  (r.target.domain, holdsFence r, isWaiting r, isSettled r.state)

/-- What the evaluation of the drain `id` reads besides the drain's own record. -/
structure Peers (id : DrainId) (w w' : World) : Prop where
  policy : w'.policy = w.policy
  topology : w'.topology = w.topology
  obligations : w'.obligations = w.obligations
  evidence : w'.evidence = w.evidence
  authority : w'.authority = w.authority
  fence : w'.fence = w.fence
  sets : w'.sets = w.sets
  exceptions : w'.exceptions = w.exceptions
  standing : ∀ other, other ≠ id →
    (w'.drain other).map standing = (w.drain other).map standing

/-- Rewriting the drain's own record. -/
theorem peers_withDrain (w : World) (r : DrainRecord) : Peers r.id w (w.withDrain r) where
  policy := rfl
  topology := rfl
  obligations := rfl
  evidence := rfl
  authority := rfl
  fence := rfl
  sets := rfl
  exceptions := rfl
  standing := fun other hne => by rw [drain_withDrain, if_neg (Ne.symm hne)]

section Congruence

variable {w w' : World} {r r' : DrainRecord}

/-- Selecting other drains by their standing. -/
theorem Peers.select (h : Peers r.id w w') (hid : r'.id = r.id)
    (f : DomainId × Bool × Bool × Bool → Bool) :
    (w'.drains.toList.filter (fun q => q.id != r'.id && f (World.standing q))).map DrainRecord.id =
      (w.drains.toList.filter (fun q => q.id != r.id && f (World.standing q))).map
        DrainRecord.id := by
  refine Table.keys_filter_congr (fun k => ?_)
  have hany : ∀ (v : World) (q : Option DrainRecord), v.drain k = q →
      q.any (fun q => q.id != r.id && f (World.standing q)) =
        (k != r.id && (q.map World.standing).any f) := by
    intro v q hq
    cases q with
    | none => simp
    | some q => rw [Option.map_some, Option.any_some, Option.any_some, id_of_drain hq]
  rw [hid]
  change (w'.drain k).any _ = (w.drain k).any _
  rw [hany w' _ rfl, hany w _ rfl]
  by_cases hk : k = r.id
  · simp [hk]
  · rw [h.standing k hk]

theorem activeDrainsInDomain_congr (h : Peers r.id w w') (domain : DomainId) :
    w'.activeDrainsInDomain domain r.id = w.activeDrainsInDomain domain r.id := by
  have hkeys := congrArg List.length (h.select rfl (fun s => s.1 == domain && s.2.1))
  rw [List.length_map, List.length_map] at hkeys
  simpa only [activeDrainsInDomain, World.standing, Bool.and_assoc] using hkeys

theorem frontmost_congr (h : Peers r.id w w') (ha : r.Alike r') :
    w'.frontmost r' = w.frontmost r := by
  have hkeys := congrArg List.head? (h.select ha.id (fun s => s.1 == r.target.domain && s.2.2.1))
  simpa only [frontmost, World.standing, ha.target, Bool.and_assoc] using hkeys

/-- The earlier members of the set do not include the drain itself. -/
theorem unsettledPredecessor_congr (h : Peers r.id w w') (ha : r.Alike r') :
    w'.unsettledPredecessor r' = w.unsettledPredecessor r := by
  simp only [unsettledPredecessor, ha.set, ha.id, ha.target, h.policy, h.sets]
  split_ifs with hserial
  · cases w.sets.find? r.set with
    | none => rfl
    | some set =>
      dsimp only
      rw [← List.head?_filter, ← List.head?_filter]
      refine congrArg List.head? (List.filter_congr (fun member hmember => ?_))
      have hne : member ≠ r.id := by simpa using List.mem_takeWhile_imp hmember
      have hstanding := h.standing member hne
      cases hw : w.drain member with
      | none =>
        rw [hw, Option.map_none, Option.map_eq_none_iff] at hstanding
        rw [hstanding]
      | some q =>
        rw [hw, Option.map_some, Option.map_eq_some_iff] at hstanding
        obtain ⟨q', hw', hsame⟩ := hstanding
        simp only [World.standing, Prod.mk.injEq] at hsame
        rw [hw']
        dsimp only
        rw [hsame.1, hsame.2.2.2]
  · rfl

theorem authorityBlockers_congr (h : Peers r.id w w') (ha : r.Alike r') (now : TimePoint) :
    w'.authorityBlockers r' now = w.authorityBlockers r now := by
  simp only [authorityBlockers, requireAuthority, ha.authority, h.authority]

theorem removalViolation_congr (h : Peers r.id w w') (ha : r.Alike r') :
    w'.removalViolation r' = w.removalViolation r := by
  rw [removalViolation, removalViolation, h.topology, h.policy, ha.target]

theorem removalOwnedBy_congr (h : Peers r.id w w') (ha : r.Alike r') :
    w'.removalOwnedBy r' = w.removalOwnedBy r := by
  simp only [removalOwnedBy, h.topology, h.fence, ha.target, ha.id]

theorem outstandingFor_congr (h : Peers r.id w w') (target : DrainTarget) :
    w'.outstandingFor target = w.outstandingFor target := by
  rw [outstandingFor, outstandingFor, h.obligations]

theorem graceDeadlineFor_congr (h : Peers r.id w w') (ha : r.Alike r') (o : Obligation) :
    w'.graceDeadlineFor r' o = w.graceDeadlineFor r o := by
  rw [graceDeadlineFor, graceDeadlineFor, h.exceptions, h.policy, ha.id]

theorem removalKey_congr (ha : r.Alike r') : removalKey r' = removalKey r := by
  rw [removalKey, removalKey, ha.id, ha.target]

theorem releaseKey_congr (ha : r.Alike r') (o : ObligationId) :
    releaseKey r' o = releaseKey r o := by
  rw [releaseKey, releaseKey, ha.id]

theorem evidenceFence_congr (h : Peers r.id w w') (now : TimePoint) :
    w'.evidenceFence now = w.evidenceFence now := by
  rw [evidenceFence, evidenceFence, h.authority, h.policy]

theorem blockerFromViolation_congr (ha : r.Alike r') (violation : TopologyViolation)
    (now : TimePoint) :
    blockerFromViolation r' violation now = blockerFromViolation r violation now := by
  simp only [blockerFromViolation, ha.target]

/-! ### The evaluations -/

theorem evaluateStart_congr (h : Peers r.id w w') (ha : r.Alike r') (now : TimePoint) :
    w'.evaluateStart r' now = w.evaluateStart r now := by
  simp only [evaluateStart, activeDrainsInDomain_congr h, frontmost_congr h ha,
    unsettledPredecessor_congr h ha, authorityBlockers_congr h ha, removalViolation_congr h ha,
    blockerFromViolation_congr ha, h.topology, h.fence, h.policy, ha.target, ha.id]

theorem evaluateEvacuation_congr (h : Peers r.id w w') (ha : r.Alike r') (now : TimePoint) :
    w'.evaluateEvacuation r' now = w.evaluateEvacuation r now := by
  simp only [evaluateEvacuation, outstandingFor_congr h, graceDeadlineFor_congr h ha, h.policy,
    ha.evacuationRequests, ha.id, ha.target]

theorem releaseBlocker_congr (h : Peers r.id w w') (ha : r.Alike r') (now : TimePoint)
    (o : Obligation) : w'.releaseBlocker r' now o = w.releaseBlocker r now o := by
  simp only [releaseBlocker, releaseKey_congr ha, evidenceFence_congr h, h.evidence, h.policy,
    ha.generation, ha.admissionClosedAt]

theorem quiescenceBlocker_congr (h : Peers r.id w w') (ha : r.Alike r') (now : TimePoint) :
    w'.quiescenceBlocker r' now = w.quiescenceBlocker r now := by
  funext o
  simp only [quiescenceBlocker, releaseBlocker_congr h ha, graceDeadlineFor_congr h ha]

theorem retirable_congr (h : Peers r.id w w') (ha : r.Alike r') (now : TimePoint) :
    w'.retirable r' now = w.retirable r now := by
  simp only [retirable, outstandingFor_congr h, releaseBlocker_congr h ha, ha.target]

theorem removalBlockers_congr (h : Peers r.id w w') (ha : r.Alike r') (now : TimePoint) :
    w'.removalBlockers r' now = w.removalBlockers r now := by
  simp only [removalBlockers, removalOwnedBy_congr h ha, removalViolation_congr h ha,
    blockerFromViolation_congr ha, h.topology, ha.target]

theorem evaluateQuiescence_congr (h : Peers r.id w w') (ha : r.Alike r') (now : TimePoint) :
    w'.evaluateQuiescence r' now = w.evaluateQuiescence r now := by
  simp only [evaluateQuiescence, outstandingFor_congr h, quiescenceBlocker_congr h ha,
    retirable_congr h ha, removalBlockers_congr h ha, ha.target]

theorem removalProof_congr (h : Peers r.id w w') (ha : r.Alike r') (now : TimePoint) :
    w'.removalProof r' now = w.removalProof r now := by
  simp only [removalProof, removalKey_congr ha, evidenceFence_congr h, h.evidence, h.policy,
    ha.generation, ha.admissionClosedAt]

theorem evaluateVerification_congr (h : Peers r.id w w') (ha : r.Alike r') (now : TimePoint) :
    w'.evaluateVerification r' now = w.evaluateVerification r now := by
  simp only [evaluateVerification, outstandingFor_congr h, removalOwnedBy_congr h ha,
    removalProof_congr h ha, h.topology, h.policy, ha.target]

/-- An evaluation depends on what `Alike` and `Peers` say it reads. -/
theorem evaluateState_congr (h : Peers r.id w w') (ha : r.Alike r') (state : DrainState)
    (now : TimePoint) : w'.evaluateState r' state now = w.evaluateState r state now := by
  cases state with
  | requested | validating => exact evaluateStart_congr h ha now
  | evacuating => exact evaluateEvacuation_congr h ha now
  | quiescing => exact evaluateQuiescence_congr h ha now
  | verifying => exact congrArg Prod.fst (evaluateVerification_congr h ha now)
  | _ => rfl

end Congruence

end World

namespace Engine

open World

/-- What recording a removal observation reads. -/
theorem recordRemovalEvidence_congr {e e' : Engine} {r r' : DrainRecord}
    (hevidence : e'.evidence = e.evidence) (hauthority : e'.authority = e.authority)
    (hpolicy : e'.policy = e.policy) (ha : r.Alike r') (now : TimePoint) :
    (e'.recordRemovalEvidence r' now).1.evidence = (e.recordRemovalEvidence r now).1.evidence ∧
      (e'.recordRemovalEvidence r' now).2 = (e.recordRemovalEvidence r now).2 := by
  have hfence : e'.evidenceFence now = e.evidenceFence now := by
    rw [evidenceFence, evidenceFence, hauthority, hpolicy]
  simp only [recordRemovalEvidence, removalKey_congr ha, hevidence, hauthority, hpolicy, hfence,
    ha.generation, ha.authority, ha.id]
  cases incrementChecked (e.evidence.highWater (removalKey r)) with
  | none => exact ⟨hevidence, rfl⟩
  | some seq => exact ⟨rfl, rfl⟩

end Engine

end DrainFabric
