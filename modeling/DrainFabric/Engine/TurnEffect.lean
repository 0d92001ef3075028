import DrainFabric.Engine.Run

/-!
# What one turn can do

The inversion of `turn`, said once: every later fact about a turn is read off
`turn_effect` and the constructors of `Act`, never off the definitions.

A turn that does anything first makes its drain ready (`Held`: a blocked drain is
revalidated and resumed, any other is taken as it is) and then acts (`Act`, one
constructor per way the switch of `step_drain` can end).

`Hold r r'` is what blocking, resuming or annotating a record leaves alone; the
phase is among it, because `Blocked` remembers where it was entered from.
-/

namespace DrainFabric

open Lib

variable {w : World} {r' : DrainRecord} {detail : String} {s next : DrainState}
  {proof : EvidenceSeq}

/-! ### Rewriting one component -/

namespace World

def withEvidence (w : World) (evidence : EvidenceLedger) : World := { w with evidence }

def withFence (w : World) (fence : AdmissionFence) : World := { w with fence }

def withTopology (w : World) (topology : Topology) : World := { w with topology }

def withObligations (w : World) (obligations : ObligationTable) : World := { w with obligations }

/-- The world with one record rewritten. -/
def withDrain (w : World) (r : DrainRecord) : World := { w with drains := w.drains.put r }

@[simp] theorem drain_withDrain (w : World) (r : DrainRecord) (id : DrainId) :
    (w.withDrain r).drain id = if r.id = id then some r else w.drain id :=
  Table.find?_put w.drains r id

@[simp] theorem fence_withDrain (w : World) (r : DrainRecord) :
    (w.withDrain r).fence = w.fence := rfl

@[simp] theorem topology_withDrain (w : World) (r : DrainRecord) :
    (w.withDrain r).topology = w.topology := rfl

@[simp] theorem obligations_withDrain (w : World) (r : DrainRecord) :
    (w.withDrain r).obligations = w.obligations := rfl

theorem withDrain_self {r : DrainRecord} (h : w.drain r.id = some r) : w.withDrain r = w := by
  unfold withDrain
  rw [Table.put_self h]

theorem withDrain_withDrain {r : DrainRecord} (h : r.id = r'.id) :
    (w.withDrain r).withDrain r' = w.withDrain r' := by
  unfold withDrain
  rw [Table.put_put h]

theorem id_of_drain {id : DrainId} {r : DrainRecord} (h : w.drain id = some r) : r.id = id :=
  Table.key_of_find? h

end World

/-- `r'` is `r` blocked, resumed or annotated: the drain stands where it stood. The
time of the closure is stamped again when `AdmissionClosed` is resumed. -/
structure Hold (r r' : DrainRecord) : Prop where
  id : r'.id = r.id
  target : r'.target = r.target
  generation : r'.generation = r.generation
  restoreGeneration : r'.restoreGeneration = r.restoreGeneration
  restoredAt : r'.restoredAt = r.restoredAt
  admissionClosedAt : r.phase ≠ .admissionClosed → r'.admissionClosedAt = r.admissionClosedAt
  phase : r'.phase = r.phase
  settled : isSettled r.state = true → r'.state = r.state
  drained : r'.state = .drained → r.state = .drained

namespace Hold

theorem refl (r : DrainRecord) : Hold r r :=
  ⟨rfl, rfl, rfl, rfl, rfl, fun _ => rfl, rfl, fun _ => rfl, fun h => h⟩

theorem trans {a b c : DrainRecord} (h : Hold a b) (h' : Hold b c) : Hold a c where
  id := h'.id.trans h.id
  target := h'.target.trans h.target
  generation := h'.generation.trans h.generation
  restoreGeneration := h'.restoreGeneration.trans h.restoreGeneration
  restoredAt := h'.restoredAt.trans h.restoredAt
  admissionClosedAt := fun hp =>
    (h'.admissionClosedAt (by rwa [h.phase])).trans (h.admissionClosedAt hp)
  phase := h'.phase.trans h.phase
  settled := fun hs => (h'.settled (by rwa [h.settled hs])).trans (h.settled hs)
  drained := fun hd => h.drained (h'.drained hd)

theorem of_block {r : DrainRecord} {at_ : TimePoint}
    (h : r.transition .blocked at_ detail = .ok r') : Hold r r' := by
  rcases DrainRecord.transition_ok h with ⟨-, rfl⟩ | ⟨hne, hlegal, -, rfl⟩
  · exact refl r'
  · refine ⟨rfl, rfl, rfl, rfl, rfl, fun _ => rfl,
      DrainRecord.phase_moved_blocked hne.symm at_ detail, fun hs => ?_,
      fun h => absurd h (by simp [DrainRecord.moved])⟩
    -- A settled drain is never blocked.
    cases hstate : r.state <;> simp [hstate, isSettled, isLegalDrainTransition] at hs hlegal

/-- Resuming goes to the phase, so it keeps the phase. -/
theorem of_resume {r : DrainRecord} {at_ : TimePoint} (hb : r.state = .blocked)
    (h : r.transition r.phase at_ detail = .ok r') : Hold r r' := by
  rcases DrainRecord.transition_ok h with ⟨-, rfl⟩ | ⟨hne, hlegal, -, rfl⟩
  · exact refl r'
  · rw [hb] at hne hlegal
    refine ⟨rfl, rfl, rfl, rfl, rfl, fun hp => if_neg hp, DrainRecord.phase_moved hne at_ detail,
      fun hs => by simp [hb, isSettled] at hs, fun hd => ?_⟩
    have : r.phase = .drained := hd
    simp [this, isLegalDrainTransition] at hlegal

theorem setBlockers (r : DrainRecord) (kept : List Blocker) : Hold r (r.setBlockers kept) :=
  ⟨rfl, rfl, rfl, rfl, rfl, fun _ => rfl, rfl, fun _ => rfl, fun h => h⟩

end Hold

/-! ### Attempts to move a record -/

namespace DrainRecord

/-- The record an attempted transition leaves: the one it leads to or, if it is refused,
the record as it was. -/
def tried (r : DrainRecord) (next : DrainState) (at_ : TimePoint) (detail : String) :
    DrainRecord :=
  (r.transition next at_ detail).toOption.getD r

/-- The record with blockers, and in `Blocked` if it can enter it. -/
def barred (r : DrainRecord) (kept : List Blocker) (at_ : TimePoint) (action : String) :
    DrainRecord :=
  if r.state = .blocked then r.setBlockers kept else (r.setBlockers kept).tried .blocked at_ action

variable {r : DrainRecord} {at_ : TimePoint}

theorem tried_of_ok (h : r.transition next at_ detail = .ok r') : r.tried next at_ detail = r' := by
  rw [tried, h]
  rfl

theorem tried_of_error {err : Error} (h : r.transition next at_ detail = .error err) :
    r.tried next at_ detail = r := by
  rw [tried, h]
  rfl

/-- A legal move applies, unless the revision is exhausted. -/
theorem tried_cases (hne : next ≠ r.state) (hlegal : isLegalDrainTransition r.state next = true)
    (at_ : TimePoint) (detail : String) :
    r.revision ≠ u64Max ∧ r.tried next at_ detail = r.moved next at_ detail ∨
      r.revision = u64Max ∧ r.tried next at_ detail = r := by
  rw [tried, transition, if_neg hne, if_neg (not_not.mpr hlegal)]
  split_ifs with hmax
  · exact Or.inr ⟨hmax, rfl⟩
  · exact Or.inl ⟨hmax, rfl⟩

@[simp] theorem id_tried : (r.tried next at_ detail).id = r.id := by
  unfold tried transition
  split_ifs <;> rfl

theorem tried_exhausted (hrev : r.revision = u64Max) : r.tried next at_ detail = r := by
  unfold tried transition
  split_ifs <;> rfl

theorem hold_barred (r : DrainRecord) (kept : List Blocker) (at_ : TimePoint) (action : String) :
    Hold r (r.barred kept at_ action) := by
  unfold barred
  split_ifs
  · exact .setBlockers r kept
  · refine (Hold.setBlockers r kept).trans ?_
    cases h : (r.setBlockers kept).transition .blocked at_ action with
    | ok r' => exact tried_of_ok h ▸ .of_block h
    | error err =>
      rw [tried_of_error h]
      exact .refl _

theorem state_barred (h : r.state = .blocked) (kept : List Blocker) (at_ : TimePoint)
    (action : String) : (r.barred kept at_ action).state = .blocked := by
  rw [barred, if_pos h]
  exact h

/-- A record can be blocked unless its revision is exhausted. -/
theorem barred_blocks (hrev : r.revision ≠ u64Max)
    (hlegal : isLegalDrainTransition r.state .blocked = true) (kept : List Blocker)
    (at_ : TimePoint) (action : String) : (r.barred kept at_ action).state = .blocked := by
  by_cases hb : r.state = .blocked
  · exact state_barred hb kept at_ action
  · rw [barred, if_neg hb]
    rcases (r.setBlockers kept).tried_cases (Ne.symm hb) hlegal at_ action with ⟨-, h⟩ | ⟨h, -⟩
    · rw [h]
      rfl
    · exact absurd h hrev

theorem barred_exhausted (hrev : r.revision = u64Max) (kept : List Blocker) (at_ : TimePoint)
    (action : String) : (r.barred kept at_ action).state = r.state := by
  unfold barred
  split_ifs
  · rfl
  · rw [tried_exhausted (r := r.setBlockers kept) hrev]
    rfl

end DrainRecord

namespace World

/-- The release check reads the ledger and the line of the world, and of the record
only what holding keeps. -/
theorem retirable_of_hold {r : DrainRecord} (hold : Hold r r') (hp : r.phase = .quiescing)
    (now : TimePoint) : (w.withDrain r').retirable r' now = w.retirable r now := by
  have hclosed := hold.admissionClosedAt (by simp [hp])
  simp only [retirable, outstandingFor, releaseBlocker, releaseKey, hold.id, hold.target,
    hold.generation, hclosed, obligations_withDrain]
  rfl

end World

namespace Engine

theorem phase_of_hold {r r₁ : DrainRecord} {state : DrainState} (hold : Hold r r₁)
    (hs : r₁.state = state) (hne : state ≠ .blocked) : r.phase = state := by
  rw [← hold.phase, DrainRecord.phase_of_state hs hne]

end Engine

namespace World

/-! ### Making a drain ready -/

/-- The ledger after at most one removal observation of the drain was offered to it. -/
def Observed (w : World) (r : DrainRecord) (now : TimePoint) (evidence : EvidenceLedger) : Prop :=
  evidence = w.evidence ∨
    ∃ draft : Evidence, draft.key = removalKey r ∧ draft.generation = r.generation ∧
      draft.observedAt = now ∧
      evidence = (w.evidence.record draft (w.evidenceFence now)
        w.policy.evidenceRequiresLiveIncarnation).1

/-- The record `r` was held as `r'`. Only a drain on its way to or in `Verifying`
is observed on the occasion, and only a drain without blockers leaves `Blocked`. -/
structure Held (now : TimePoint) (r : DrainRecord) (w : World) (r' : DrainRecord)
    (evidence : EvidenceLedger) : Prop where
  hold : Hold r r'
  observed : w.Observed r now evidence
  unobserved : r.phase ≠ .verifying → evidence = w.evidence
  cleared : r.state = .blocked → r'.state ≠ .blocked →
    (w.withEvidence evidence).evaluateState r r.phase now = []

/-- The record is held and the ledger is left alone. -/
theorem Held.of_hold (now : TimePoint) {r : DrainRecord} (w : World) (h : Hold r r')
    (hb : r.state = .blocked → r'.state = .blocked) : Held now r w r' w.evidence where
  hold := h
  observed := Or.inl rfl
  unobserved := fun _ => rfl
  cleared := fun hr hr' => absurd (hb hr) hr'

/-- The moves of the forward path that change nothing but the record. -/
inductive Forward : DrainState → DrainState → Prop
  | validate : Forward .requested .validating
  | evacuate : Forward .admissionClosed .evacuating
  | skip : Forward .admissionClosed .quiescing
  | quiesce : Forward .evacuating .quiescing
  | reappear : Forward .quiescing .evacuating

theorem Forward.ne (h : Forward s next) : next ≠ s := by
  cases h <;> decide

theorem Forward.ne_blocked (h : Forward s next) : s ≠ .blocked ∧ next ≠ .blocked := by
  cases h <;> decide

theorem Forward.legal (h : Forward s next) : isLegalDrainTransition s next = true := by
  cases h <;> decide

/-! ### Acting -/

/-- The record a drain is completed with, before it enters `Drained`. -/
def completionRecord (w : World) (r : DrainRecord) (proof : EvidenceSeq) (now : TimePoint) :
    DrainRecord :=
  { r with completedAt := now, remainingProtectedAtCompletion := 0,
           completionDigest := w.authoritativeDigest, completionEvidence := proof }

/-- How the active part of a turn of the drain with record `r` can end: the world it
leaves behind and the requests it issues. -/
inductive Act (now : TimePoint) (r : DrainRecord) (w : World) :
    World → List EvacuationRequest → Prop
  /-- Nothing, or the drain is blocked, possibly after another observation. -/
  | held {r' : DrainRecord} {evidence : EvidenceLedger} :
      Held now r w r' evidence →
      Act now r w ((w.withEvidence evidence).withDrain r') []
  /-- `Evacuating`: one request per obligation that still has to be moved. -/
  | requested {r' : DrainRecord} {attempt : Attempt} :
      r.state = .evacuating → w.evaluateEvacuation r now = [] → Hold r r' →
      Act now r w (w.withDrain r')
        (((w.outstandingFor r.target).filter isMoving).map
          (Engine.evacuationRequest w r attempt now))
  | moved {next : DrainState} (detail : String) :
      Forward r.state next → Act now r w (w.withDrain (r.moved next now detail)) []
  /-- `Validating`: admission is closed. With an exhausted revision the record keeps
  its state but already carries the generation. -/
  | closed {fence : AdmissionFence} {generation : Generation} {r' : DrainRecord} :
      r.state = .validating → w.evaluateStart r now = [] →
      w.fence.close r.target r.id now r.reason = (fence, .ok generation) →
      ((∃ detail, r' = { r with generation }.moved .admissionClosed now detail) ∨
        (r.revision = u64Max ∧ r' = { r with generation })) →
      Act now r w ((w.withFence fence).withDrain r') []
  | closeFailed {fence : AdmissionFence} {err : Error} {r' : DrainRecord} :
      r.state = .validating → w.evaluateStart r now = [] →
      w.fence.close r.target r.id now r.reason = (fence, .error err) → Hold r r' →
      Act now r w ((w.withFence fence).withDrain r') []
  /-- `Quiescing`: what was released is retired. -/
  | retired :
      r.state = .quiescing → w.evaluateQuiescence r now = [] →
      Act now r w (w.withObligations
        ((w.retirable r now).foldl (Engine.retireOne now) (w.obligations, 0)).1) []
  /-- The removal step: the resource leaves service and is observed. -/
  | removed {node : ResourceNode} {topology : Topology} {evidence : EvidenceLedger}
      {r' : DrainRecord} :
      r.state = .quiescing → w.evaluateQuiescence r now = [] → w.retirable r now = [] →
      w.topology.resource r.target.id = some node → node.status = .inService →
      (w.removalViolation r).ok = true →
      w.topology.setStatus r.target.id .unavailable = .ok topology →
      (w.withTopology topology).Observed r now evidence →
      (Hold r r' ∨ ∃ detail, r' = r.moved .verifying now detail) →
      Act now r w (((w.withTopology topology).withEvidence evidence).withDrain r') []
  /-- The removal step again: the resource is out of service and owned. -/
  | observed {evidence : EvidenceLedger} {r' : DrainRecord} :
      r.state = .quiescing → w.evaluateQuiescence r now = [] → w.retirable r now = [] →
      w.removalOwnedBy r = true → w.Observed r now evidence →
      (Hold r r' ∨ ∃ detail, r' = r.moved .verifying now detail) →
      Act now r w ((w.withEvidence evidence).withDrain r') []
  | completed {evidence : EvidenceLedger} {proof : EvidenceSeq} (detail : String) :
      r.state = .verifying → w.Observed r now evidence →
      (w.withEvidence evidence).evaluateVerification r now = ([], proof) →
      Act now r w ((w.withEvidence evidence).withDrain
        (((w.withEvidence evidence).completionRecord r proof now).moved .drained now detail)) []
  /-- `Restoring`: the drain settles. -/
  | settled {topology : Topology} (detail : String) :
      r.state = .restoring →
      (topology = w.topology ∨ w.removalOwnedBy r = true ∧
        w.topology.setStatus r.target.id .inService = .ok topology) →
      Act now r w ((w.withTopology topology).withDrain
        ((r.moved .cancelled now detail).markRestored now r.restoreGeneration)) []
  | settleFailed {topology : Topology} {r' : DrainRecord} :
      r.state = .restoring → r.revision = u64Max →
      (topology = w.topology ∨ w.removalOwnedBy r = true ∧
        w.topology.setStatus r.target.id .inService = .ok topology) → Hold r r' →
      Act now r w ((w.withTopology topology).withDrain r') []

end World

namespace Engine

open World

/-! ### The building blocks of a turn -/

@[simp] theorem recordDecision_toWorld (e : Engine) (decision : Decision) :
    (e.recordDecision decision).toWorld = e.toWorld := rfl

@[simp] theorem storeDrain_toWorld (e : Engine) (r : DrainRecord) :
    (e.storeDrain r).toWorld = e.toWorld.withDrain r := rfl

theorem drain_storeDrain (e : Engine) (r : DrainRecord) : (e.storeDrain r).drain r.id = some r := by
  rw [storeDrain_toWorld, drain_withDrain, if_pos rfl]

section

variable {e e' : Engine} {r : DrainRecord} {now : TimePoint} {outcome : DecisionOutcome}
  {inputs notes rejected : List String}

/-- The transition applies, and the record it leads to is stored. -/
theorem applyTransition_some
    (h : e.applyTransition r next now detail outcome inputs notes rejected = (e', some r')) :
    r.transition next now detail = .ok r' ∧ e'.toWorld = e.toWorld.withDrain r' := by
  unfold applyTransition at h
  cases ht : r.transition next now detail with
  | ok after =>
    rw [ht] at h
    cases h
    exact ⟨rfl, rfl⟩
  | error err =>
    rw [ht] at h
    cases h

/-- The transition is refused, and only a decision is recorded. -/
theorem applyTransition_none
    (h : e.applyTransition r next now detail outcome inputs notes rejected = (e', none)) :
    (∃ err, r.transition next now detail = .error err) ∧ e'.toWorld = e.toWorld := by
  unfold applyTransition at h
  cases ht : r.transition next now detail with
  | ok after =>
    rw [ht] at h
    cases h
  | error err =>
    rw [ht] at h
    cases h
    exact ⟨⟨err, rfl⟩, rfl⟩

theorem applyTransition_fst :
    (e.applyTransition r next now detail outcome inputs notes rejected).1.toWorld =
      (r.transition next now detail).toOption.elim e.toWorld e.toWorld.withDrain := by
  unfold applyTransition
  cases r.transition next now detail <;> rfl

theorem applyTransition_snd :
    (e.applyTransition r next now detail outcome inputs notes rejected).2 =
      (r.transition next now detail).toOption := by
  unfold applyTransition
  cases r.transition next now detail <;> rfl

/-- The record of the table is moved, if it can be. -/
theorem applyTransition_toWorld (hr : e.drain r.id = some r) :
    (e.applyTransition r next now detail outcome inputs notes rejected).1.toWorld =
      e.toWorld.withDrain (r.tried next now detail) := by
  rw [applyTransition_fst]
  cases ht : r.transition next now detail with
  | error err => exact (DrainRecord.tried_of_error ht ▸ withDrain_self hr).symm
  | ok r' => rw [DrainRecord.tried_of_ok ht]; rfl

theorem applyTransition_storeDrain :
    ((e.storeDrain r).applyTransition r next now detail outcome inputs notes rejected).1.toWorld =
      e.toWorld.withDrain (r.tried next now detail) := by
  rw [applyTransition_toWorld (drain_storeDrain e r), storeDrain_toWorld,
    withDrain_withDrain DrainRecord.id_tried.symm]

/-- Blocking a drain rewrites its record and nothing else. -/
theorem enterBlocked_toWorld (e : Engine) (r : DrainRecord) (blockers : List Blocker)
    (now : TimePoint) (action : String) :
    (e.enterBlocked r blockers now action).toWorld = e.toWorld.withDrain
      (r.barred ((Blocker.normalize blockers).take e.policy.maxBlockersPerDrain) now action) := by
  unfold enterBlocked DrainRecord.barred
  dsimp only
  change (if r.state = .blocked then _ else _ : Engine).toWorld = _
  split_ifs
  · rfl
  · exact applyTransition_storeDrain

end

theorem recordRemovalEvidence_observed (e : Engine) (r : DrainRecord) (now : TimePoint) :
    ∃ evidence, e.toWorld.Observed r now evidence ∧
      (e.recordRemovalEvidence r now).1 = { e with evidence } := by
  simp only [recordRemovalEvidence]
  cases incrementChecked (e.evidence.highWater (removalKey r)) with
  | none => exact ⟨e.evidence, Or.inl rfl, rfl⟩
  | some seq => exact ⟨_, Or.inr ⟨_, rfl, rfl, rfl, rfl⟩, rfl⟩

theorem withStatus_toWorld {e : Engine} {id : ResourceId} {node : ResourceNode}
    (h : e.topology.resource id = some node) (status : ResourceStatus) :
    ∃ topology, e.topology.setStatus id status = .ok topology ∧
      e.withStatus id status = { e with topology } := by
  have hset := (@Topology.setStatus_eq_ok _ _ _ status).mpr ⟨_, h, rfl⟩
  exact ⟨_, hset, by simp only [withStatus, hset]⟩

/-! ### One lemma per state -/

section

variable {e : Engine} {r : DrainRecord} {now : TimePoint}

/-- The turn ends by blocking its drain. -/
theorem act_enterBlocked (blockers : List Blocker) (action : String) :
    Act now r e.toWorld (e.enterBlocked r blockers now action).toWorld [] := by
  rw [enterBlocked_toWorld]
  exact .held (.of_hold now e.toWorld (r.hold_barred _ now action)
    (fun h => DrainRecord.state_barred h _ now action))

theorem act_idle (hr : e.drain r.id = some r) : Act now r e.toWorld e.toWorld [] := by
  have h := Act.held (.of_hold now e.toWorld (Hold.refl r) (fun h => h))
  rwa [show e.toWorld.withEvidence e.evidence = e.toWorld from rfl, withDrain_self hr] at h

/-- A move that changes only the record, or fails and changes nothing. -/
theorem act_applyTransition (hr : e.drain r.id = some r) (hf : Forward r.state next)
    (detail : String) (outcome : DecisionOutcome) (inputs notes rejected : List String) :
    Act now r e.toWorld
      (e.applyTransition r next now detail outcome inputs notes rejected).1.toWorld [] := by
  rw [applyTransition_toWorld hr]
  rcases r.tried_cases hf.ne hf.legal now detail with ⟨-, h⟩ | ⟨-, h⟩
  · rw [h]
    exact .moved detail hf
  · rw [h, withDrain_self hr]
    exact act_idle hr

theorem act_stepRequested (hr : e.drain r.id = some r) (hs : r.state = .requested) :
    Act now r e.toWorld (e.stepRequested r now).toWorld [] :=
  act_applyTransition hr (hs ▸ .validate) _ _ _ _ _

theorem act_stepValidating (hs : r.state = .validating) :
    Act now r e.toWorld (e.stepValidating r now).toWorld [] := by
  simp only [stepValidating]
  split_ifs with hblocked
  · have hstart : e.evaluateStart r now = [] := by simpa using hblocked
    rcases hclose : e.fence.close r.target r.id now r.reason with ⟨fence, err | generation⟩
    · dsimp only
      rw [enterBlocked_toWorld]
      exact .closeFailed hs hstart hclose (r.hold_barred _ _ _)
    · dsimp only
      rw [applyTransition_storeDrain]
      refine .closed hs hstart hclose ?_
      rcases DrainRecord.tried_cases (r := { r with generation })
        (show DrainState.admissionClosed ≠ r.state by simp [hs])
        (by simp [hs, isLegalDrainTransition]) now "admission closed" with
        ⟨-, h⟩ | h
      · exact Or.inl ⟨_, h⟩
      · exact Or.inr h
  · exact act_enterBlocked _ _

theorem act_stepAdmissionClosed (hr : e.drain r.id = some r) (hs : r.state = .admissionClosed) :
    Act now r e.toWorld (e.stepAdmissionClosed r now).toWorld [] := by
  simp only [stepAdmissionClosed]
  split_ifs
  · exact act_idle hr
  · exact act_applyTransition hr (hs ▸ .skip) _ _ _ _ _
  · exact act_applyTransition hr (hs ▸ .evacuate) _ _ _ _ _

theorem act_stepEvacuating (hr : e.drain r.id = some r) (hs : r.state = .evacuating) :
    Act now r e.toWorld (e.stepEvacuating r now).1.toWorld (e.stepEvacuating r now).2 := by
  simp only [stepEvacuating]
  split_ifs with hmoving hblocked hwait
  · exact act_idle hr
  · exact .requested hs (by simpa using hblocked)
      ⟨rfl, rfl, rfl, rfl, rfl, fun _ => rfl, rfl, fun _ => rfl, fun h => h⟩
  · exact act_enterBlocked _ _
  · exact act_applyTransition hr (hs ▸ .quiesce) _ _ _ _ _

/-- The end of the removal step, in the world with the resource out of service. -/
theorem observeRemoval_world (e : Engine) (r : DrainRecord) (now : TimePoint)
    (hs : r.state = .quiescing) (hr : e.drain r.id = some r) :
    ∃ evidence r', e.toWorld.Observed r now evidence ∧
      (Hold r r' ∨ ∃ detail, r' = r.moved .verifying now detail) ∧
      (e.observeRemoval r now).toWorld = (e.toWorld.withEvidence evidence).withDrain r' := by
  obtain ⟨evidence, hobs, hrec⟩ := recordRemovalEvidence_observed e r now
  simp only [observeRemoval]
  rcases hres : e.recordRemovalEvidence r now with ⟨e', err | u⟩
  · obtain rfl : e' = { e with evidence } := by rw [← hrec, hres]
    exact ⟨evidence, _, hobs, Or.inl (r.hold_barred _ _ _), enterBlocked_toWorld _ _ _ _ _⟩
  · obtain rfl : e' = { e with evidence } := by rw [← hrec, hres]
    refine ⟨evidence, _, hobs, ?_, applyTransition_toWorld (e := { e with evidence }) hr⟩
    rcases r.tried_cases (show DrainState.verifying ≠ r.state by simp [hs])
      (by simp [hs, isLegalDrainTransition]) now "removal step completed" with ⟨-, h⟩ | ⟨-, h⟩
    · exact Or.inr ⟨_, h⟩
    · exact Or.inl (h.symm ▸ Hold.refl r)

theorem act_stepQuiescing (hr : e.drain r.id = some r) (hs : r.state = .quiescing) :
    Act now r e.toWorld (e.stepQuiescing r now).toWorld [] := by
  simp only [stepQuiescing]
  split_ifs with hmoving hblocked hretire
  · exact act_applyTransition hr (hs ▸ .reappear) _ _ _ _ _
  · have hquiet : e.evaluateQuiescence r now = [] := by simpa using hblocked
    have hretirable : e.retirable r now = [] := by simpa using hretire
    simp only [removalStep]
    cases hnode : e.topology.resource r.target.id with
    | none => exact act_enterBlocked _ _
    | some node =>
      dsimp only
      split_ifs with howned hservice hviolation
      · exact act_enterBlocked _ _
      · have hstatus : node.status = .inService := by
          simpa [ResourceNode.isInService] using hservice
        obtain ⟨topology, hset, hwith⟩ := withStatus_toWorld hnode .unavailable
        obtain ⟨evidence, r', hobs, hr', hworld⟩ :=
          observeRemoval_world { e with topology } r now hs hr
        rw [hwith, hworld]
        exact .removed hs hquiet hretirable hnode hstatus hviolation hset hobs hr'
      · exact act_enterBlocked _ _
      · have hown : e.removalOwnedBy r = true := by
          by_contra hnot
          refine howned ⟨fun h => hservice ?_, hnot⟩
          simp [ResourceNode.isInService, h]
        obtain ⟨evidence, r', hobs, hr', hworld⟩ := observeRemoval_world e r now hs hr
        rw [hworld]
        exact .observed hs hquiet hretirable hown hobs hr'
  · exact .retired hs (by simpa using hblocked)
  · exact act_enterBlocked _ _

/-- A verification without blockers left nothing outstanding. -/
theorem outstandingFor_of_verified (h : w.evaluateVerification r now = ([], proof)) :
    w.outstandingFor r.target = [] := by
  by_contra hne
  have hmap : ¬ ((w.outstandingFor r.target).map (fun obligation =>
      makeBlocker .protectedObligationActive obligation.label
        "a protected obligation still depends on the target" now)).isEmpty = true := by
    simpa using hne
  simp only [evaluateVerification, if_pos hmap, Prod.mk.injEq, List.map_eq_nil_iff] at h
  exact hne h.1

theorem recordCompletion_of_verified (hv : e.evaluateVerification r now = ([], proof)) :
    r.recordCompletion now ((e.outstandingFor r.target).length % 2 ^ 32)
      e.authoritativeDigest proof = .ok (e.completionRecord r proof now) := by
  simp [outstandingFor_of_verified hv, DrainRecord.recordCompletion, completionRecord]

/-- The end of `Verifying`, once the blockers are gone. -/
theorem completeDrain_world (hs : r.state = .verifying)
    (hv : e.evaluateVerification r now = ([], proof)) :
    ∃ r', ((∃ detail, r' = (e.completionRecord r proof now).moved .drained now detail) ∨
        Hold r r') ∧
      (e.completeDrain r proof now).toWorld = e.toWorld.withDrain r' := by
  have hstate : (e.completionRecord r proof now).state = .verifying := hs
  simp only [completeDrain, recordCompletion_of_verified hv]
  refine ⟨_, ?_, applyTransition_storeDrain⟩
  rcases DrainRecord.tried_cases (r := e.completionRecord r proof now)
    (show DrainState.drained ≠ _ by simp [hstate]) (by simp [hstate, isLegalDrainTransition]) now
    "authoritative snapshot proves zero protected dependencies" with ⟨-, h⟩ | ⟨-, h⟩
  · exact Or.inl ⟨_, h⟩
  · rw [h]
    exact Or.inr ⟨rfl, rfl, rfl, rfl, rfl, fun _ => rfl, rfl, fun _ => rfl, fun h => h⟩

/-- `Verifying` after the optional second observation. -/
theorem act_verified {evidence : EvidenceLedger} {blockers : List Blocker}
    (hs : r.state = .verifying) (hobs : e.toWorld.Observed r now evidence) (hv : blockers = [] →
      (e.toWorld.withEvidence evidence).evaluateVerification r now = ([], proof)) :
    Act now r e.toWorld
      (if ¬ blockers.isEmpty then
        ({ e with evidence } : Engine).enterBlocked r blockers now "verification-blocked"
      else ({ e with evidence } : Engine).completeDrain r proof now).toWorld [] := by
  have hphase : r.phase = .verifying := by
    rw [DrainRecord.phase_of_state hs (by decide)]
  have hheld : ∀ r', Hold r r' → Held now r e.toWorld r' evidence := fun r' hold =>
    ⟨hold, hobs, fun hne => absurd hphase hne, fun hb => by simp [hs] at hb⟩
  split_ifs with hblocked
  · obtain ⟨r', hr', hworld⟩ := completeDrain_world (e := { e with evidence }) hs
      (hv (by simpa using hblocked))
    rw [hworld]
    rcases hr' with ⟨detail, rfl⟩ | hold
    · exact .completed detail hs hobs (hv (by simpa using hblocked))
    · exact .held (hheld r' hold)
  · rw [enterBlocked_toWorld]
    exact .held (hheld _ (r.hold_barred _ _ _))

theorem act_stepVerifying (hs : r.state = .verifying) :
    Act now r e.toWorld (e.stepVerifying r now).toWorld [] := by
  have hself : e.toWorld.Observed r now e.evidence := Or.inl rfl
  simp only [stepVerifying]
  by_cases hagain : ¬ (e.evaluateVerification r now).1.isEmpty = true ∧
      e.policy.reobserveRemovalEvidence = true ∧ e.removalIsReobservable r = true
  · rw [if_pos hagain]
    obtain ⟨evidence, hobs, hrec⟩ := recordRemovalEvidence_observed e r now
    rcases hres : e.recordRemovalEvidence r now with ⟨e', err | u⟩
    · obtain rfl : e' = { e with evidence } := by rw [← hrec, hres]
      exact act_verified hs hobs (fun h => absurd (List.isEmpty_iff.mpr h) hagain.1)
    · obtain rfl : e' = { e with evidence } := by rw [← hrec, hres]
      exact act_verified hs hobs (fun h => Prod.ext h rfl)
  · rw [if_neg hagain]
    exact act_verified hs hself (fun h => Prod.ext h rfl)

/-- `Restoring` puts the resource back in service only where it still owns the removal. -/
theorem restoring_topology (e : Engine) (r : DrainRecord) :
    ∃ topology, (topology = e.topology ∨ e.removalOwnedBy r = true ∧
        e.topology.setStatus r.target.id .inService = .ok topology) ∧
      (if e.removalOwnedBy r then e.withStatus r.target.id .inService else e) =
        { e with topology } := by
  split_ifs with hown
  · cases hnode : e.topology.resource r.target.id with
    | none => simp [removalOwnedBy, hnode] at hown
    | some node =>
      obtain ⟨topology, hset, hwith⟩ := withStatus_toWorld hnode .inService
      exact ⟨topology, Or.inr ⟨hown, hset⟩, hwith⟩
  · exact ⟨e.topology, Or.inl rfl, rfl⟩

theorem act_stepRestoring (hr : e.drain r.id = some r) (hs : r.state = .restoring) :
    Act now r e.toWorld (e.stepRestoring r now).toWorld [] := by
  simp only [stepRestoring]
  obtain ⟨topology, htop, heq⟩ := restoring_topology e r
  rw [heq]
  split_ifs with hsettle
  · exact act_idle hr
  · split
    · rename_i e' hmove
      obtain ⟨⟨err, ht⟩, hworld⟩ := applyTransition_none hmove
      have hrev := DrainRecord.revision_of_transition_error ht
        (by simp [hs, isLegalDrainTransition])
      rw [enterBlocked_toWorld, hworld]
      exact .settleFailed hs hrev htop (r.hold_barred _ _ _)
    · rename_i e' r' hmove
      obtain ⟨ht, hworld⟩ := applyTransition_some hmove
      rcases DrainRecord.transition_ok ht with ⟨hsame, -⟩ | ⟨-, -, -, rfl⟩
      · simp [hs] at hsame
      · rw [storeDrain_toWorld, hworld, withDrain_withDrain (by rfl)]
        exact .settled _ hs htop

/-- The switch of `step_drain`. -/
theorem act_stepActive (now : TimePoint) (hr : e.drain r.id = some r) :
    Act now r e.toWorld (e.stepActive r now).1.toWorld (e.stepActive r now).2 := by
  unfold stepActive
  cases hs : r.state with
  | requested => exact act_stepRequested hr hs
  | validating => exact act_stepValidating hs
  | admissionClosed => exact act_stepAdmissionClosed hr hs
  | evacuating => exact act_stepEvacuating hr hs
  | quiescing => exact act_stepQuiescing hr hs
  | verifying => exact act_stepVerifying hs
  | restoring => exact act_stepRestoring hr hs
  | blocked => exact act_idle hr
  | drained => exact act_idle hr
  | cancelled => exact act_idle hr
  | failed => exact act_idle hr

/-! ### Resuming -/

/-- The ledger a blocked drain is revalidated with. -/
def revalidationLedger (e : Engine) (r : DrainRecord) (now : TimePoint) : EvidenceLedger :=
  if r.phase = .verifying ∧ e.policy.reobserveRemovalEvidence ∧ e.removalIsReobservable r
  then (e.recordRemovalEvidence r now).1.evidence else e.evidence

theorem revalidationLedger_of_ne (h : r.phase ≠ .verifying) :
    e.revalidationLedger r now = e.evidence :=
  if_neg (fun hagain => h hagain.1)

theorem revalidationLedger_observed (e : Engine) (r : DrainRecord) (now : TimePoint) :
    e.toWorld.Observed r now (e.revalidationLedger r now) := by
  unfold revalidationLedger
  split_ifs
  · obtain ⟨evidence, hobs, hrec⟩ := recordRemovalEvidence_observed e r now
    rwa [hrec]
  · exact Or.inl rfl

/-- A blocked drain stays blocked while the revalidation finds blockers, and is resumed
when it finds none. -/
theorem resumeBlocked_eq (hb : r.state = .blocked) :
    e.resumeBlocked r now =
      (let e₀ : Engine := { e with evidence := e.revalidationLedger r now }
       if ¬ (e₀.evaluateState r r.phase now).isEmpty then
         (e₀.enterBlocked r (e₀.evaluateState r r.phase now) now "stay-blocked", none)
       else e₀.applyTransition r r.phase now "blockers cleared" .applied
         ["resume-to=" ++ r.phase.toString] [] []) := by
  have hphase : r.blockedFrom.getD .validating = r.phase := by rw [DrainRecord.phase, if_pos hb]
  have hobserved : (if r.phase = .verifying ∧ e.policy.reobserveRemovalEvidence ∧
      e.removalIsReobservable r then (e.recordRemovalEvidence r now).1 else e) =
      { e with evidence := e.revalidationLedger r now } := by
    unfold revalidationLedger
    split_ifs with hagain
    · obtain ⟨evidence, -, hrec⟩ := recordRemovalEvidence_observed e r now
      rw [hrec]
    · rfl
  simp only [resumeBlocked, hphase, hobserved]

/-- While the revalidation finds blockers the drain stays blocked; then it is moved to its
phase, if it can be. -/
theorem resumeBlocked_cases (hr : e.drain r.id = some r) (hb : r.state = .blocked)
    (now : TimePoint) :
    ∃ w r', w = e.toWorld.withEvidence (e.revalidationLedger r now) ∧
      (e.resumeBlocked r now).1.toWorld = w.withDrain r' ∧
      (w.evaluateState r r.phase now ≠ [] ∧ (e.resumeBlocked r now).2 = none ∧ Hold r r' ∧
          r'.state = .blocked ∨
        w.evaluateState r r.phase now = [] ∧
          (e.resumeBlocked r now).2 = (r.transition r.phase now "blockers cleared").toOption ∧
          r' = r.tried r.phase now "blockers cleared") := by
  rw [resumeBlocked_eq hb]
  dsimp only
  split_ifs with hclear
  · exact ⟨_, _, rfl, applyTransition_toWorld (e := { e with evidence := _ }) hr,
      Or.inr ⟨List.isEmpty_iff.mp hclear, applyTransition_snd, rfl⟩⟩
  · exact ⟨_, _, rfl, enterBlocked_toWorld _ _ _ _ _, Or.inl
      ⟨fun h => hclear (List.isEmpty_iff.mpr h), rfl, r.hold_barred _ _ _,
        DrainRecord.state_barred hb _ _ _⟩⟩

/-- Revalidating a blocked drain. -/
theorem resumeBlocked_held (e : Engine) (now : TimePoint) (hr : e.drain r.id = some r)
    (hb : r.state = .blocked) :
    ∃ r' evidence, Held now r e.toWorld r' evidence ∧
      (e.resumeBlocked r now).1.toWorld =
        (e.toWorld.withEvidence evidence).withDrain r' ∧
      ∀ resumed, (e.resumeBlocked r now).2 = some resumed → resumed = r' := by
  obtain ⟨_, r', rfl, hworld, hcase⟩ := resumeBlocked_cases hr hb now
  refine ⟨r', _, ⟨?_, e.revalidationLedger_observed r now, revalidationLedger_of_ne, ?_⟩, hworld,
    fun resumed h => ?_⟩
  · rcases hcase with ⟨-, -, hold, -⟩ | ⟨-, -, rfl⟩
    · exact hold
    · cases ht : r.transition r.phase now "blockers cleared" with
      | ok r' => exact DrainRecord.tried_of_ok ht ▸ Hold.of_resume hb ht
      | error err =>
        rw [DrainRecord.tried_of_error ht]
        exact .refl r
  · rcases hcase with ⟨-, -, -, hstays⟩ | ⟨hclear, -, -⟩
    · exact fun _ hleft => absurd hstays hleft
    · exact fun _ _ => hclear
  · rcases hcase with ⟨-, hnone, -⟩ | ⟨-, hsome, rfl⟩
    · rw [hnone] at h
      cases h
    · rw [DrainRecord.tried, ← hsome, h]
      rfl

end

/-! ### The turn -/

/-- What one turn can do: nothing when the drain is unknown or settled; otherwise
the drain is made ready, and the turn ends there or the drain acts. -/
theorem turn_effect (e : Engine) (id : DrainId) (now : TimePoint) :
    ((e.turn id now) = (e, []) ∧ ∀ r, e.drain id = some r → isSettled r.state = true) ∨
      ∃ r r' evidence w, e.drain id = some r ∧ isSettled r.state = false ∧
        Held now r e.toWorld r' evidence ∧
        w = (e.toWorld.withEvidence evidence).withDrain r' ∧
        ((e.turn id now).1.toWorld = w ∧ (e.turn id now).2 = [] ∨
          Act now r' w (e.turn id now).1.toWorld (e.turn id now).2) := by
  simp only [turn]
  cases hr : e.drain id with
  | none => exact Or.inl ⟨rfl, by simp⟩
  | some r =>
    have hid : r.id = id := id_of_drain hr
    rw [← hid] at hr
    by_cases hset : isSettled r.state = true
    · refine Or.inl ⟨by simp [hset], fun r' h => ?_⟩
      rwa [← Option.some.inj h]
    · refine Or.inr ⟨r, ?_⟩
      rw [Bool.not_eq_true] at hset
      have hstep : (if isSettled r.state = true then (e, []) else e.stepDrain r now) =
          e.stepDrain r now := by rw [hset]; rfl
      simp only [hstep]
      simp only [stepDrain]
      split_ifs with hb
      · obtain ⟨r', evidence, held, hworld, hres⟩ := resumeBlocked_held e now hr hb
        refine ⟨r', evidence, _, trivial, hset, held, rfl, ?_⟩
        rcases hr1 : e.resumeBlocked r now with ⟨e1, _ | resumed⟩
        · rw [hr1] at hworld
          exact Or.inl ⟨hworld, rfl⟩
        · rw [hr1] at hworld hres
          obtain rfl := hres resumed rfl
          have hdrain : e1.drain resumed.id = some resumed := by
            rw [hworld, drain_withDrain, if_pos rfl]
          have hact := act_stepActive now hdrain
          rw [hworld] at hact
          exact Or.inr hact
      · refine ⟨r, e.evidence, e.toWorld, trivial, hset,
          .of_hold now e.toWorld (Hold.refl r) (fun h => h), (withDrain_self hr).symm, ?_⟩
        exact Or.inr (act_stepActive now hr)

end Engine

end DrainFabric
