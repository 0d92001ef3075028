import DrainFabric.Engine.State

/-!
# The scheduling pass

`DrainEngine::advance` and `step_drain`: one pass gives every drain that has not
settled one turn, in the order of the drain ids.

In the source a turn works on a reference into the drain table, so that every
change to the record is in the table at once. Here each change to the record is
followed by `storeDrain`.

* `applyTransition`, `enterBlocked` — how a turn moves or blocks a record;
* `stepRequested` … `stepRestoring` — one function per state of the switch;
* `resumeBlocked` — revalidation of a blocked drain, which precedes the switch;
* `turn`, `advance` — one drain, one pass.
-/

namespace DrainFabric

open Lib

namespace Engine

open World

/-! ### Audit trail -/

/-- `make_decision`. -/
def makeDecision (w : World) (action : String) (outcome : DecisionOutcome) (drain : DrainId)
    (set : DrainSetId) (generation : Generation) (now : TimePoint) : Decision :=
  { action, outcome, drain, set, generation, epoch := w.authority.epoch,
    incarnation := w.authority.incarnation, policyRevision := w.policy.revision,
    policyFingerprint := w.policy.fingerprint, at_ := now }

/-- `record_decision`: append, then drop from the front what the policy does not
retain. -/
def recordDecision (e : Engine) (decision : Decision) : Engine :=
  let decisions := e.decisions ++ [decision]
  { e with decisions := decisions.drop (decisions.length - e.policy.maxDecisionsRetained) }

/-- A decision about one drain, under the drain's own set and generation. -/
def drainDecision (e : Engine) (record : DrainRecord) (action : String)
    (outcome : DecisionOutcome) (now : TimePoint) : Decision :=
  makeDecision e.toWorld action outcome record.id record.set record.generation now

/-- A decision that concerns no drain. -/
def plainDecision (e : Engine) (action : String) (outcome : DecisionOutcome)
    (now : TimePoint) : Decision :=
  makeDecision e.toWorld action outcome 0 0 0 now

/-! ### Changing a record -/

/-- Writing a record through its reference into the table. -/
def storeDrain (e : Engine) (record : DrainRecord) : Engine :=
  { e with drains := e.drains.put record }

/-- Writing the status of a resource the topology is known to hold. -/
def withStatus (e : Engine) (id : ResourceId) (status : ResourceStatus) : Engine :=
  match e.topology.setStatus id status with
  | .ok topology => { e with topology }
  | .error _ => e

/-- `apply_transition`: the record it leaves behind when the transition applies. -/
def applyTransition (e : Engine) (record : DrainRecord) (next : DrainState) (now : TimePoint)
    (detail : String) (outcome : DecisionOutcome) (inputs evidenceNotes rejected : List String) :
    Engine × Option DrainRecord :=
  match record.transition next now detail with
  | .error err =>
    (e.recordDecision { e.drainDecision record "transition-rejected" .rejected now with
      inputs := ["from=" ++ record.state.toString, "to=" ++ next.toString]
      rejected := [err.toString] }, none)
  | .ok after =>
    let e := e.storeDrain after
    (e.recordDecision { e.drainDecision after ("enter-" ++ next.toString) outcome now with
      inputs := ["from=" ++ record.state.toString, "detail=" ++ truncate detail] ++ inputs
      evidence := evidenceNotes
      rejected := rejected
      blockers := if next = .blocked then after.blockers else [] }, some after)

/-- `enter_blocked`. -/
def enterBlocked (e : Engine) (record : DrainRecord) (blockers : List Blocker) (now : TimePoint)
    (action : String) : Engine :=
  let record := record.setBlockers
    ((Blocker.normalize blockers).take e.policy.maxBlockersPerDrain)
  let e := e.storeDrain record
  if record.state = .blocked then
    e.recordDecision { e.drainDecision record action .blocked now with
      blockers := record.blockers }
  else
    (e.applyTransition record .blocked now action .blocked [] [] ["ignore-the-blocker"]).1

/-- `record_removal_evidence`. -/
def recordRemovalEvidence (e : Engine) (record : DrainRecord) (now : TimePoint) :
    Engine × Status :=
  let key := removalKey record
  match incrementChecked (e.evidence.highWater key) with
  | none => (e, fail .boundsExceeded "the evidence sequence space is exhausted")
  | some seq =>
    let draft : Evidence :=
      { seq, key, generation := record.generation, epoch := e.authority.epoch,
        producer := e.authority.incarnation, authority := record.authority, observedAt := now,
        expiresAt := saturatingAdd now e.policy.evidenceFreshness, healthy := true,
        detail := "removal observation taken by drain " ++ toString record.id }
    let (evidence, recorded) := e.evidence.record draft (e.evidenceFence now)
      e.policy.evidenceRequiresLiveIncarnation
    ({ e with evidence }, recorded.map (fun _ => ()))

/-! ### One function per state -/

/-- `case DrainState::Requested`. -/
def stepRequested (e : Engine) (record : DrainRecord) (now : TimePoint) : Engine :=
  (e.applyTransition record .validating now "begin validation" .applied [] [] []).1

/-- `case DrainState::Validating`. -/
def stepValidating (e : Engine) (record : DrainRecord) (now : TimePoint) : Engine :=
  let blockers := e.evaluateStart record now
  if ¬ blockers.isEmpty then e.enterBlocked record blockers now "validation-blocked"
  else
    match e.fence.close record.target record.id now record.reason with
    | (fence, .error err) =>
      { e with fence }.enterBlocked record
        [makeBlocker .admissionFenceMissing record.target.toString err.message now]
        now "fence-close-failed"
    | (fence, .ok generation) =>
      let record := { record with generation }
      ((storeDrain { e with fence } record).applyTransition record .admissionClosed now
        "admission closed" .applied
        ["target=" ++ record.target.toString, "generation=" ++ toString generation]
        ["fence-state=closed"] ["proceed-without-closing-admission"]).1

/-- `case DrainState::AdmissionClosed`. -/
def stepAdmissionClosed (e : Engine) (record : DrainRecord) (now : TimePoint) : Engine :=
  if now < saturatingAdd record.admissionClosedAt e.policy.admissionFenceSettle then
    e.recordDecision { e.drainDecision record "await-fence-settle" .noOp now with
      inputs := ["settle=" ++ describeDuration e.policy.admissionFenceSettle,
        "closed-at=" ++ describeTime record.admissionClosedAt] }
  else
    let outstanding := e.outstandingFor record.target
    if outstanding.isEmpty then
      (e.applyTransition record .quiescing now "no protected dependencies depend on the target"
        .applied ["outstanding-protected=0"] []
        ["request-evacuation-with-nothing-to-evacuate"]).1
    else
      (e.applyTransition record .evacuating now "protected dependencies require evacuation"
        .applied ["outstanding-protected=" ++ toString outstanding.length] []
        ["declare-quiescent-with-active-obligations"]).1

/-- The request the pass issues for one obligation that still has to be moved. -/
def evacuationRequest (w : World) (record : DrainRecord) (attempt : Attempt) (now : TimePoint)
    (obligation : Obligation) : EvacuationRequest :=
  { drain := record.id, target := record.target, obligation := obligation.id,
    expectedRevision := obligation.revision,
    evidenceSeq :=
      (incrementChecked (w.evidence.highWater (releaseKey record obligation.id))).getD 0,
    kind := obligation.kind, mode := obligation.mode, generation := record.generation, attempt,
    at_ := now, reason := record.reason }

/-- `case DrainState::Evacuating`. -/
def stepEvacuating (e : Engine) (record : DrainRecord) (now : TimePoint) :
    Engine × List EvacuationRequest :=
  let outstanding := e.outstandingFor record.target
  if ¬ outstanding.any isMoving then
    ((e.applyTransition record .quiescing now "every protected dependency has been evacuated"
      .applied ["outstanding-protected=" ++ toString outstanding.length] [] []).1, [])
  else
    let blockers := e.evaluateEvacuation record now
    if ¬ blockers.isEmpty then
      (e.enterBlocked record blockers now "evacuation-blocked", [])
    else
      let retryAt := saturatingAdd record.lastEvacuationAt e.policy.evacuationRetryInterval
      if record.evacuationRequests ≠ 0 ∧ ¬ now ≥ retryAt then
        (e.recordDecision { e.drainDecision record "await-evacuation" .noOp now with
          inputs := ["outstanding-protected=" ++ toString outstanding.length,
            "next-retry-after=" ++ describeTime retryAt] }, [])
      else
        let attempt : Attempt := (record.evacuationRequests + 1) % 2 ^ 32
        let requests := (outstanding.filter isMoving).map
          (evacuationRequest e.toWorld record attempt now)
        let record := record.noteEvacuationAttempt now
        let e := e.storeDrain record
        (e.recordDecision { e.drainDecision record "request-evacuation" .applied now with
          inputs := ["attempt=" ++ toString attempt, "requested=" ++ toString requests.length,
            "outstanding-protected=" ++ toString outstanding.length]
          rejected := ["perform-the-migration-in-drain-fabric"] }, requests)

/-- One iteration of the loop that retires obligations; the second component
counts the retirements. -/
def retireOne (now : TimePoint) (acc : ObligationTable × Nat) (id : ObligationId) :
    ObligationTable × Nat :=
  match acc.1.find id with
  | none => acc
  | some obligation =>
    match obligation.applyState obligation.revision .retired obligation.releaseEvidence now with
    | .ok retired => (acc.1.store retired, acc.2 + 1)
    | .error _ => acc

/-- The branch of `Quiescing` that retires what `evaluate_quiescence` found ready. -/
def retireObligations (e : Engine) (record : DrainRecord) (ids : List ObligationId)
    (now : TimePoint) : Engine :=
  let (obligations, retired) := ids.foldl (retireOne now) (e.obligations, 0)
  let e := { e with obligations }
  e.recordDecision { e.drainDecision record "retire-obligations" .applied now with
    inputs := ["retired=" ++ toString retired]
    evidence := ids.filterMap (fun id =>
      (e.obligations.find id).map (fun obligation =>
        obligation.label ++ " release-evidence=" ++ toString obligation.releaseEvidence)) }

/-- The end of the removal step: take the observation, then enter `Verifying`. -/
def observeRemoval (e : Engine) (record : DrainRecord) (now : TimePoint) : Engine :=
  match e.recordRemovalEvidence record now with
  | (e, .error err) =>
    e.enterBlocked record
      [makeBlocker .quiescenceEvidenceMissing (removalKey record).label err.message now]
      now "removal-evidence-failed"
  | (e, .ok _) =>
    (e.applyTransition record .verifying now "removal step completed" .applied
      ["resource=" ++ record.target.id, "removal=applied"]
      ["removal-observation=recorded-for-generation-" ++ toString record.generation]
      ["removal=assumed-without-observation"]).1

/-- The removal step: validated before the resource leaves service. -/
def removalStep (e : Engine) (record : DrainRecord) (now : TimePoint) : Engine :=
  match e.topology.resource record.target.id with
  | none =>
    e.enterBlocked record [makeBlocker .topologyInconsistent record.target.toString
      "the target disappeared before the removal step" now] now "removal-step-rejected"
  | some node =>
    if node.status ≠ .inService ∧ ¬ e.removalOwnedBy record then
      e.enterBlocked record [makeBlocker .topologyInconsistent record.target.toString
        "the target left service outside this drain, so this drain cannot claim its removal" now]
        now "removal-step-not-owned"
    else if node.isInService then
      if ¬ (e.removalViolation record).ok then
        e.enterBlocked record [blockerFromViolation record (e.removalViolation record) now] now
          "removal-step-rejected"
      else (e.withStatus record.target.id .unavailable).observeRemoval record now
    else e.observeRemoval record now

/-- `case DrainState::Quiescing`. -/
def stepQuiescing (e : Engine) (record : DrainRecord) (now : TimePoint) : Engine :=
  if (e.outstandingFor record.target).any isMoving then
    (e.applyTransition record .evacuating now
      "an obligation reappeared and must be evacuated again" .applied ["reappeared=true"] []
      []).1
  else
    let blockers := e.evaluateQuiescence record now
    if ¬ blockers.isEmpty then e.enterBlocked record blockers now "quiescence-blocked"
    else
      let retirable := e.retirable record now
      if ¬ retirable.isEmpty then e.retireObligations record retirable now
      else e.removalStep record now

/-- The end of `Verifying`, with the proof that was found. -/
def completeDrain (e : Engine) (record : DrainRecord) (proof : EvidenceSeq) (now : TimePoint) :
    Engine :=
  let remaining := (e.outstandingFor record.target).length
  let digest := e.authoritativeDigest
  match record.recordCompletion now (remaining % 2 ^ 32) digest proof with
  | .error err =>
    e.enterBlocked record
      [makeBlocker .protectedObligationActive record.target.toString err.message now]
      now "completion-refused"
  | .ok record =>
    ((e.storeDrain record).applyTransition record .drained now
      "authoritative snapshot proves zero protected dependencies" .applied
      ["remaining-protected=0", "snapshot-digest=" ++ hexU64 digest]
      ["removal-evidence=" ++ toString proof] ["complete-without-verification"]).1

/-- `case DrainState::Verifying`. -/
def stepVerifying (e : Engine) (record : DrainRecord) (now : TimePoint) : Engine :=
  let (blockers, proof) := e.evaluateVerification record now
  -- One more observation may clear the blockers, but only if it could be recorded.
  let (e, blockers, proof) :=
    if ¬ blockers.isEmpty ∧ e.policy.reobserveRemovalEvidence ∧ e.removalIsReobservable record then
      match e.recordRemovalEvidence record now with
      | (e, .ok _) =>
        let (blockers, proof) := e.evaluateVerification record now
        (e, blockers, proof)
      | (e, .error _) => (e, blockers, proof)
    else (e, blockers, proof)
  if ¬ blockers.isEmpty then e.enterBlocked record blockers now "verification-blocked"
  else e.completeDrain record proof now

/-- `case DrainState::Restoring`. -/
def stepRestoring (e : Engine) (record : DrainRecord) (now : TimePoint) : Engine :=
  if now < saturatingAdd record.stateSince e.policy.admissionFenceSettle then
    e.recordDecision { makeDecision e.toWorld "await-restore-settle" .noOp record.id record.set
        record.restoreGeneration now with
      inputs := ["settle=" ++ describeDuration e.policy.admissionFenceSettle] }
  else
    let e := if e.removalOwnedBy record then e.withStatus record.target.id .inService else e
    match e.applyTransition record .cancelled now
        "restoration complete; admission reopened under a fresh generation" .applied
        ["reopened-generation=" ++ toString record.restoreGeneration] []
        ["reopen-with-the-closed-generation"] with
    | (e, none) =>
      e.enterBlocked record [makeBlocker .generationSuperseded record.target.toString
        "restoration could not settle into the cancelled state" now] now "restoration-rejected"
    | (e, some record) => e.storeDrain (record.markRestored now record.restoreGeneration)

/-- The switch of `step_drain`. -/
def stepActive (e : Engine) (record : DrainRecord) (now : TimePoint) :
    Engine × List EvacuationRequest :=
  match record.state with
  | .requested => (e.stepRequested record now, [])
  | .validating => (e.stepValidating record now, [])
  | .admissionClosed => (e.stepAdmissionClosed record now, [])
  | .evacuating => e.stepEvacuating record now
  | .quiescing => (e.stepQuiescing record now, [])
  | .verifying => (e.stepVerifying record now, [])
  | .restoring => (e.stepRestoring record now, [])
  | .blocked | .drained | .cancelled | .failed => (e, [])

/-- The first part of `step_drain`: a blocked drain is revalidated and, when
nothing blocks it any more, resumed. The record is the resumed one, if any. -/
def resumeBlocked (e : Engine) (record : DrainRecord) (now : TimePoint) :
    Engine × Option DrainRecord :=
  let resume := record.blockedFrom.getD .validating
  let e :=
    if resume = .verifying ∧ e.policy.reobserveRemovalEvidence ∧ e.removalIsReobservable record
    then (e.recordRemovalEvidence record now).1 else e
  let blockers := e.evaluateState record resume now
  if ¬ blockers.isEmpty then (e.enterBlocked record blockers now "stay-blocked", none)
  else
    e.applyTransition record resume now "blockers cleared" .applied
      ["resume-to=" ++ resume.toString] [] []

/-- `step_drain`. -/
def stepDrain (e : Engine) (record : DrainRecord) (now : TimePoint) :
    Engine × List EvacuationRequest :=
  if record.state = .blocked then
    match e.resumeBlocked record now with
    | (e, none) => (e, [])
    | (e, some record) => e.stepActive record now
  else e.stepActive record now

/-- One drain's share of a pass: a settled drain is skipped. -/
def turn (e : Engine) (id : DrainId) (now : TimePoint) : Engine × List EvacuationRequest :=
  match e.drain id with
  | none => (e, [])
  | some record => if isSettled record.state then (e, []) else e.stepDrain record now

/-- One iteration of the loop of `advance`. -/
def passStep (now : TimePoint) (acc : Engine × PendingActions) (id : DrainId) :
    Engine × PendingActions :=
  let (e, requests) := acc.1.turn id now
  (e, { acc.2 with evacuations := acc.2.evacuations ++ requests })

/-- `advance`, up to the dispatch of the collected requests. -/
def advance (e : Engine) (now : TimePoint) : Engine × PendingActions :=
  e.drains.keys.foldl (passStep now) (e, {})

end Engine

end DrainFabric
