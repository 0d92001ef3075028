import DrainFabric.Engine.Fate
import DrainFabric.Ledger

/-!
# What a turn leaves alone

A turn belongs to one drain. It leaves the records of all other drains, the policy,
the line of authority and the newest record of every foreign evidence stream alone.

* `turn_frame` — the frame;
* `passTurns_split`, `run_others` — the turns of a pass before and after the one of a
  drain belong to other drains and leave it alone;
* `mem_turn_requests` — which drain a request of a turn belongs to;
* `evaluateVerification_nil`, `removalProof_ok` — what a verification without blockers
  found.
-/

namespace DrainFabric

open Lib

variable {id : DrainId} {w : World} {r : DrainRecord} {now : TimePoint} {key : EvidenceKey}

namespace World

/-- What a turn of the drain `id` may not touch. -/
structure Frame (id : DrainId) (w w' : World) : Prop where
  others : ∀ other, other ≠ id → w'.drain other = w.drain other
  policy : w'.policy = w.policy
  authority : w'.authority = w.authority
  latest : ∀ key e, key.drain ≠ id → w.evidence.latest key = some e →
    w'.evidence.latest key = some e

theorem Frame.refl (id : DrainId) (w : World) : Frame id w w :=
  ⟨fun _ _ => rfl, rfl, rfl, fun _ _ _ h => h⟩

theorem Frame.trans {w₁ w₂ : World} (h : Frame id w w₁) (h' : Frame id w₁ w₂) : Frame id w w₂ :=
  ⟨fun other hne => (h'.others other hne).trans (h.others other hne), h'.policy.trans h.policy,
    h'.authority.trans h.authority, fun key e hne he => h'.latest key e hne (h.latest key e hne he)⟩

/-- An observation is filed in the drain's own stream. -/
theorem Observed.latest {evidence : EvidenceLedger} (h : w.Observed r now evidence) {e : Evidence}
    (hne : key.drain ≠ r.id) (he : w.evidence.latest key = some e) :
    evidence.latest key = some e := by
  rcases h with rfl | ⟨draft, hkey, -, -, rfl⟩
  · exact he
  · refine EvidenceLedger.latest_record (fun heq => hne ?_) he
    rw [heq, hkey]
    rfl

theorem Observed.highWater {evidence : EvidenceLedger} (h : w.Observed r now evidence)
    (hne : key.drain ≠ r.id) : evidence.highWater key = w.evidence.highWater key := by
  rcases h with rfl | ⟨draft, hkey, -, -, rfl⟩
  · rfl
  · refine EvidenceLedger.highWater_record (fun heq => hne ?_)
    rw [← heq, hkey]
    rfl

/-- Rewriting the drain's record, its ledger and components outside the frame. -/
theorem Frame.of_rewrite {w' : World} {r' : DrainRecord} (hdrains : w'.drains = w.drains.put r')
    (hid : r'.id = r.id) (hobs : w.Observed r now w'.evidence) (hpolicy : w'.policy = w.policy)
    (hauthority : w'.authority = w.authority) : Frame r.id w w' where
  others := fun other hne => by
    rw [drain, hdrains, drain, Table.find?_put, if_neg]
    exact fun h => hne (h.symm.trans hid)
  policy := hpolicy
  authority := hauthority
  latest := fun _ _ hne he => hobs.latest hne he

theorem Act.frame {now : TimePoint} {r : DrainRecord} {w w' : World}
    {requests : List EvacuationRequest} (h : Act now r w w' requests) : Frame r.id w w' := by
  have unobserved : w.Observed r now w.evidence := Or.inl rfl
  cases h with
  | held h => exact .of_rewrite rfl h.hold.id h.observed rfl rfl
  | requested _ _ hold => exact .of_rewrite rfl hold.id unobserved rfl rfl
  | moved => exact .of_rewrite rfl rfl unobserved rfl rfl
  | @closed _ _ r' _ _ _ hr' =>
    have hid : r'.id = r.id := by rcases hr' with ⟨_, rfl⟩ | ⟨-, rfl⟩ <;> rfl
    exact .of_rewrite rfl hid unobserved rfl rfl
  | closeFailed _ _ _ hold => exact .of_rewrite rfl hold.id unobserved rfl rfl
  | retired => exact ⟨fun _ _ => rfl, rfl, rfl, fun _ _ _ h => h⟩
  | @removed _ _ _ r' _ _ _ _ _ _ _ hobs hr' =>
    have hid : r'.id = r.id := by
      rcases hr' with hold | ⟨_, rfl⟩
      · exact hold.id
      · rfl
    exact .of_rewrite rfl hid hobs rfl rfl
  | @observed _ r' _ _ _ _ hobs hr' =>
    have hid : r'.id = r.id := by
      rcases hr' with hold | ⟨_, rfl⟩
      · exact hold.id
      · rfl
    exact .of_rewrite rfl hid hobs rfl rfl
  | completed _ _ hobs => exact .of_rewrite rfl rfl hobs rfl rfl
  | settled => exact .of_rewrite rfl rfl unobserved rfl rfl
  | settleFailed _ _ _ hold => exact .of_rewrite rfl hold.id unobserved rfl rfl

/-- All that an act does to the ledger is to observe the removal. -/
theorem Act.observes {w' : World} {requests : List EvacuationRequest}
    (h : Act now r w w' requests) : w.Observed r now w'.evidence := by
  cases h with
  | held h => exact h.observed
  | removed _ _ _ _ _ _ _ hobs => exact hobs
  | observed _ _ _ _ hobs => exact hobs
  | completed _ _ hobs => exact hobs
  | _ => exact Or.inl rfl

/-! ### What a verification found -/

/-- What a verification without blockers found. -/
theorem evaluateVerification_nil {proof : EvidenceSeq}
    (h : w.evaluateVerification r now = ([], proof)) :
    w.removalOwnedBy r = true ∧
      (w.policy.requireQuiescenceEvidence = true → w.removalProof r now = .ok proof) := by
  have hnone := Engine.outstandingFor_of_verified h
  have howned : w.removalOwnedBy r = true := by
    by_contra hnot
    rw [Bool.not_eq_true] at hnot
    cases hnode : w.topology.resource r.target.id <;> cases hproof : w.removalProof r now <;>
      cases hreq : w.policy.requireQuiescenceEvidence <;>
      simp [evaluateVerification, hnone, hnot, hnode, hproof, hreq] at h
  refine ⟨howned, fun hreq => ?_⟩
  obtain ⟨⟨node, hnode, -⟩, -⟩ := removalOwnedBy_iff.mp howned
  cases hproof : w.removalProof r now with
  | error blocker => simp [evaluateVerification, hnone, howned, hnode, hproof, hreq] at h
  | ok seq =>
    simp only [evaluateVerification, hnone, howned, hnode, hproof, hreq] at h
    exact congrArg _ (Prod.mk.inj h).2

/-- The record a verification accepted as proof of the removal. -/
theorem removalProof_ok {proof : EvidenceSeq} (h : w.removalProof r now = .ok proof) :
    ∃ e, w.evidence.latest (removalKey r) = some e ∧ e.seq = proof ∧
      EvidenceLedger.isFresh e (w.evidenceFence now) w.policy.evidenceFreshness = true ∧
      e.generation = r.generation ∧ r.admissionClosedAt ≤ e.observedAt := by
  unfold removalProof at h
  dsimp only at h
  cases hfresh : w.evidence.fresh (removalKey r) (w.evidenceFence now)
      w.policy.evidenceFreshness with
  | none => simp [hfresh] at h
  | some e =>
    obtain ⟨hlatest, hisFresh⟩ := EvidenceLedger.latest_of_fresh hfresh
    simp only [hfresh] at h
    split_ifs at h with hgeneration hobserved
    rw [ne_eq, not_not] at hgeneration
    exact ⟨e, hlatest, Except.ok.inj h, hisFresh, hgeneration, not_lt.mp hobserved⟩

theorem evaluateVerification_nil_iff :
    (w.evaluateVerification r now).1 = [] ↔
      w.outstandingFor r.target = [] ∧ w.removalOwnedBy r = true ∧
        (w.policy.requireQuiescenceEvidence = true → ∃ proof, w.removalProof r now = .ok proof) := by
  constructor
  · intro h
    have hv : w.evaluateVerification r now = ([], (w.evaluateVerification r now).2) :=
      Prod.ext h rfl
    obtain ⟨howned, hproof⟩ := evaluateVerification_nil hv
    exact ⟨Engine.outstandingFor_of_verified hv, howned, fun hreq => ⟨_, hproof hreq⟩⟩
  · rintro ⟨hnone, howned, hproof⟩
    obtain ⟨⟨node, hnode, -⟩, -⟩ := removalOwnedBy_iff.mp howned
    simp only [evaluateVerification, hnone, howned, hnode]
    by_cases hreq : w.policy.requireQuiescenceEvidence = true
    · obtain ⟨proof, hok⟩ := hproof hreq
      simp [hreq, hok]
    · simp [hreq]

/-- A fresh observation of the drain's own generation proves the removal, unless it is
older than the closure. -/
theorem removalProof_iff {e : Evidence} (hlatest : w.evidence.latest (removalKey r) = some e)
    (hfresh : EvidenceLedger.isFresh e (w.evidenceFence now) w.policy.evidenceFreshness = true)
    (hgeneration : e.generation = r.generation) :
    (∃ proof, w.removalProof r now = .ok proof) ↔ r.admissionClosedAt ≤ e.observedAt := by
  constructor
  · rintro ⟨proof, hproof⟩
    obtain ⟨e', hlatest', -, -, -, htime⟩ := removalProof_ok hproof
    rw [hlatest] at hlatest'
    rwa [Option.some.inj hlatest']
  · intro htime
    refine ⟨e.seq, ?_⟩
    have hfound : w.evidence.fresh (removalKey r) (w.evidenceFence now)
        w.policy.evidenceFreshness = some e := by
      rw [EvidenceLedger.fresh, hlatest, Option.filter_some, if_pos hfresh]
    simp only [removalProof, hfound]
    rw [if_neg (not_not.mpr hgeneration), if_neg (not_lt.mpr htime)]

/-! ### What an evacuation found -/

theorem evaluateEvacuation_nil_iff :
    w.evaluateEvacuation r now = [] ↔
      (∀ o ∈ w.outstandingFor r.target, o.state ≠ .failed ∧ now ≤ w.graceDeadlineFor r o) ∧
        ((w.outstandingFor r.target).any isMoving = true →
          r.evacuationRequests < w.policy.maxEvacuationAttempts) := by
  simp only [evaluateEvacuation, List.append_eq_nil_iff]
  refine and_congr ?_ ?_
  · rw [List.filterMap_eq_nil_iff]
    refine forall₂_congr (fun o _ => ?_)
    split_ifs with hfailed hexpired
    · simp [hfailed]
    · simp [not_le.mpr hexpired]
    · simp [hfailed, not_lt.mp hexpired]
  · split_ifs with hexhausted
    · simp only [Bool.and_eq_true, decide_eq_true_eq] at hexhausted
      simp [hexhausted.1, hexhausted.2]
    · simp only [Bool.and_eq_true, decide_eq_true_eq, not_and, not_le] at hexhausted
      simpa using hexhausted

end World

namespace Engine

open World

/-- What a turn leaves alone. -/
theorem turn_frame (e : Engine) (id : DrainId) (now : TimePoint) :
    Frame id e.toWorld (e.turn id now).1.toWorld := by
  rcases turn_effect e id now with ⟨heq, -⟩ | ⟨r, r₁, evidence, w₁, hr, -, held, hw₁, hact⟩
  · rw [heq]
    exact .refl id e.toWorld
  obtain rfl := id_of_drain hr
  have hready : Frame r.id e.toWorld w₁ := by
    rw [hw₁]
    exact .of_rewrite rfl held.hold.id held.observed rfl rfl
  rcases hact with ⟨hworld, -⟩ | hact
  · rwa [hworld]
  · exact hready.trans (held.hold.id ▸ hact.frame)

/-- A turn leaves the marks of foreign streams alone. -/
theorem turn_highWater (e : Engine) (now : TimePoint) (hne : key.drain ≠ id) :
    (e.turn id now).1.evidence.highWater key = e.evidence.highWater key := by
  rcases turn_effect e id now with ⟨heq, -⟩ | ⟨r, r₁, evidence, w₁, hr, -, held, hw₁, hact⟩
  · rw [heq]
  obtain rfl := id_of_drain hr
  have hready : w₁.evidence.highWater key = e.evidence.highWater key := by
    rw [hw₁]
    exact held.observed.highWater hne
  rcases hact with ⟨hworld, -⟩ | hact
  · rw [hworld, hready]
  · exact (hact.observes.highWater (held.hold.id.symm ▸ hne)).trans hready

/-- Every drain has one turn in a pass. -/
theorem passTurns_split {e : Engine} {pre post : List Event}
    (h : e.passTurns now = pre ++ .turn id now :: post) :
    ∀ ev ∈ pre ++ post, ∃ other, other ≠ id ∧ ev = .turn other now := by
  obtain ⟨before, rest, hkeys, rfl, hrest⟩ := List.map_eq_append_iff.mp h
  obtain ⟨_, after, rfl, hid, rfl⟩ := List.map_eq_cons_iff.mp hrest
  obtain rfl := (Event.turn.inj hid).1
  have honce := Table.notMem_of_keys_split hkeys
  intro ev hev
  rw [← List.map_append] at hev
  obtain ⟨other, hother, rfl⟩ := List.mem_map.mp hev
  exact ⟨other, fun heq => honce (heq ▸ hother), rfl⟩

/-- The turns of other drains leave a drain, its evidence streams, the policy and the line
alone. -/
theorem run_others {events : List Event}
    (h : ∀ ev ∈ events, ∃ other, other ≠ id ∧ ev = .turn other now) (e : Engine) :
    (run fire e events).drain id = e.drain id ∧ (run fire e events).policy = e.policy ∧
      (run fire e events).authority = e.authority ∧ ∀ key : EvidenceKey, key.drain = id →
        (run fire e events).evidence.highWater key = e.evidence.highWater key := by
  refine run_invariant (C := fun _ ev => ∃ other, other ≠ id ∧ ev = Event.turn other now)
    (P := fun s : Engine => s.drain id = e.drain id ∧ s.policy = e.policy ∧
      s.authority = e.authority ∧ ∀ key : EvidenceKey, key.drain = id →
        s.evidence.highWater key = e.evidence.highWater key)
    ?_ ⟨rfl, rfl, rfl, fun _ _ => rfl⟩ (always_of_forall (fun ev hev _ => h ev hev) e)
  rintro s ev ⟨hdrain, hpolicy, hauthority, hmark⟩ ⟨other, hne, rfl⟩
  have frame := turn_frame s other now
  exact ⟨(frame.others id hne.symm).trans hdrain, frame.policy.trans hpolicy,
    frame.authority.trans hauthority, fun key hkey =>
      (turn_highWater s now (hkey.trans_ne hne.symm)).trans (hmark key hkey)⟩

/-- A request is issued by a drain that is evacuating, under its generation, for an
obligation of the table; the turn leaves both in place. -/
theorem mem_turn_requests {e : Engine} {q : EvacuationRequest} (hq : q ∈ (e.turn id now).2) :
    ∃ r r' o, e.drain id = some r ∧ r.phase = .evacuating ∧
      (e.turn id now).1.drain id = some r' ∧ Hold r r' ∧
      (e.turn id now).1.obligations.find o.id = some o ∧
      q.drain = id ∧ q.generation = r.generation ∧ q.obligation = o.id := by
  rcases turn_effect e id now with ⟨heq, -⟩ | ⟨r, r₁, evidence, w₁, hr, -, held, hw₁, hact⟩
  · simp [heq] at hq
  rcases hact with ⟨-, hnone⟩ | hact
  · simp [hnone] at hq
  generalize (e.turn id now).1.toWorld = w' at hact ⊢
  generalize (e.turn id now).2 = requests at hact hq
  cases hact with
  | @requested r' attempt hs _ hold =>
    obtain ⟨o, ho, rfl⟩ := List.mem_map.mp hq
    have hall := (List.mem_filter.mp (List.mem_filter.mp ho).1).1
    have hphase := phase_of_hold held.hold hs (by decide)
    obtain rfl := id_of_drain hr
    refine ⟨r, r', o, hr, hphase, ?_, held.hold.trans hold, ObligationTable.mem_all_iff.mp hall,
      held.hold.id, held.hold.generation, rfl⟩
    rw [drain_withDrain, if_pos (hold.id.trans held.hold.id)]
  | _ => simp at hq

end Engine

end DrainFabric
