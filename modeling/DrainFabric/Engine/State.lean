import DrainFabric.Admission
import DrainFabric.Authority
import DrainFabric.Decision
import DrainFabric.Evidence
import DrainFabric.Topology

/-!
# Engine state and evaluation

`engine.hpp`: the authoritative state of the runtime, and the helpers of the
engine that only read it.

The state is split in two: `World` is everything an operation can depend on, and
`Engine` adds the audit trail, which operations only append to. The mutex, the
clock, the sink and the counters of `EngineStats` are not part of the model: the
first three carry no state of the runtime and the counters are never read by an
operation.

* `evaluateStart`, `evaluateEvacuation`, `evaluateQuiescence`,
  `evaluateVerification` — what keeps a drain from its next transition;
* `removalOwnedBy`, `removalIsReobservable` — removal as reconstructed from the
  fence and the status of the resource.
-/

namespace DrainFabric

open Lib

def maxDrains : Nat := 65536
def maxDrainSets : Nat := 16384

/-! ### Requests -/

structure DrainRequest where
  targets : List DrainTarget := []
  reason : String := ""
  authority : AuthorityId := 0
  node : NodeId := ""
  nonce : RequestNonce := 0
  deriving DecidableEq, Repr

structure ObligationReport where
  obligation : ObligationId := 0
  expectedRevision : Revision := 0
  next : ObligationState := .admitted
  evidence : EvidenceSeq := 0
  drain : DrainId := 0
  generation : Generation := 0
  attempt : Attempt := 0
  note : String := ""
  deriving DecidableEq, Repr

structure EvacuationRequest where
  drain : DrainId := 0
  target : DrainTarget := {}
  obligation : ObligationId := 0
  expectedRevision : Revision := 0
  evidenceSeq : EvidenceSeq := 0
  kind : ObligationKind := .activeFlow
  mode : EvacuationMode := .rerouteAndRelease
  generation : Generation := 0
  attempt : Attempt := 0
  at_ : TimePoint := 0
  reason : String := ""
  deriving DecidableEq, Repr

structure RestorationRequest where
  drain : DrainId := 0
  target : DrainTarget := {}
  obligation : ObligationId := 0
  generation : Generation := 0
  restoreGeneration : Generation := 0
  at_ : TimePoint := 0
  reason : String := ""
  deriving DecidableEq, Repr

structure AdmissionReopenRequest where
  target : DrainTarget := {}
  generation : Generation := 0
  at_ : TimePoint := 0
  reason : String := ""
  deriving DecidableEq, Repr

/-- `PendingActions`: what is handed to the sink once the lock is released. -/
structure PendingActions where
  evacuations : List EvacuationRequest := []
  restorations : List RestorationRequest := []
  reopens : List AdmissionReopenRequest := []
  deriving DecidableEq, Repr

/-! ### State -/

structure World where
  policy : DrainPolicy := {}
  topology : Topology := {}
  obligations : ObligationTable := {}
  evidence : EvidenceLedger := {}
  authority : AuthorityRegistry := {}
  fence : AdmissionFence := {}
  drains : Table DrainRecord.id := Table.empty DrainRecord.id
  sets : Table DrainSet.id := Table.empty DrainSet.id
  exceptions : OrdMap DrainId (List ExceptionGrant) := Table.empty Prod.fst
  nonceSets : OrdMap RequestNonce DrainSetId := Table.empty Prod.fst
  drainHighWater : DrainId := 0
  setHighWater : DrainSetId := 0
  exceptionHighWater : Nat := 0

structure Engine extends World where
  decisions : List Decision := []

/-- The constructor `DrainEngine(policy, clock)`. -/
def Engine.init (policy : DrainPolicy) : Engine :=
  { policy, obligations := { maxObligations := policy.maxObligations },
    evidence := { maxRecords := policy.maxEvidenceRecords } }

/-- `is_fence_holding_state`. -/
def isFenceHoldingState (state : DrainState) : Bool :=
  state matches .admissionClosed | .evacuating | .quiescing | .verifying

/-- `holds_fence`. -/
def holdsFence (record : DrainRecord) : Bool :=
  isFenceHoldingState record.state ||
    (record.state == .blocked && record.blockedFrom.any isFenceHoldingState)

/-- Whether a drain holds its fence depends on its phase. -/
theorem holdsFence_eq (record : DrainRecord) :
    holdsFence record = isFenceHoldingState record.phase := by
  unfold holdsFence DrainRecord.phase
  by_cases hb : record.state = .blocked
  · rw [if_pos hb, hb]
    cases record.blockedFrom <;> rfl
  · rw [if_neg hb]
    simp [hb]

namespace World

/-! ### Reading the state -/

/-- `drain`. -/
def drain (w : World) (id : DrainId) : Option DrainRecord := w.drains.find? id

/-- `evidence_fence`. -/
def evidenceFence (w : World) (now : TimePoint) : EvidenceFence :=
  { liveIncarnation := w.authority.incarnation, liveEpoch := w.authority.epoch, now,
    allowedSkew := w.policy.evidenceClockSkew }

/-- `require_authority`. -/
def requireAuthority (w : World) (authority : AuthorityId) (now : TimePoint) : Status := do
  rejectIf (authority = 0) .authorityRequired "this operation requires an authority token"
  let token ← orFail (w.authority.find authority) .authorityRequired
    ("authority " ++ toString authority ++ " is not known to this incarnation")
  w.authority.validate token now

/-- `outstanding_for`. -/
def outstandingFor (w : World) (target : DrainTarget) : List Obligation :=
  w.obligations.outstandingProtectedDependentsOf target

/-- `removal_owned_by`: the resource is `Unavailable` and the fence of the target
is closed by this drain. The generation of the entry is not compared. -/
def removalOwnedBy (w : World) (record : DrainRecord) : Bool :=
  match w.topology.resource record.target.id with
  | none => false
  | some node =>
    node.status == .unavailable &&
      (w.fence.entry record.target).any (fun e => e.closed && e.drain == record.id)

/-- `removal_is_reobservable`. -/
def removalIsReobservable (w : World) (record : DrainRecord) : Bool :=
  (w.outstandingFor record.target).isEmpty &&
    (w.fence.entry record.target).any (fun e => e.closed && e.generation == record.generation) &&
    (w.topology.resource record.target.id).any (fun node => node.status == .unavailable)

/-- The stream of a drain's removal observations. -/
def removalKey (record : DrainRecord) : EvidenceKey :=
  { kind := .resourceRemoved, drain := record.id, resource := record.target.id }

/-- The stream of the release reports for one obligation under one drain. -/
def releaseKey (record : DrainRecord) (obligation : ObligationId) : EvidenceKey :=
  { kind := .obligationReleased, drain := record.id, obligation }

/-- `active_drains_in_domain`. -/
def activeDrainsInDomain (w : World) (domain : DomainId) (exclude : DrainId) : Nat :=
  (w.drains.toList.filter (fun r =>
    r.id != exclude && r.target.domain == domain && holdsFence r)).length

/-- `grace_deadline_for`. -/
def graceDeadlineFor (w : World) (record : DrainRecord) (obligation : Obligation) : TimePoint :=
  ((OrdMap.get? w.exceptions record.id).getD []).foldl (fun deadline grant =>
    if grant.obligation = 0 ∨ grant.obligation = obligation.id then
      saturatingAdd deadline grant.extension
    else deadline)
    (saturatingAdd obligation.admittedAt (w.policy.graceFor obligation))

/-! ### Blockers -/

/-- `make_blocker`. -/
def makeBlocker (code : BlockerCode) (subject detail : String) (since : TimePoint)
    (deadline : TimePoint := 0) : Blocker :=
  { code, subject := truncate subject 192, detail := truncate detail, since, deadline }

/-- `blocker_from_violation`. -/
def blockerFromViolation (record : DrainRecord) (violation : TopologyViolation)
    (now : TimePoint) : Blocker :=
  let code : BlockerCode := match violation.kind with
    | .none | .unknownResource => .topologyInconsistent
    | .capacityPoolExhausted | .reservationOverCapacity => .capacityInsufficient
    | .diversityLost => .pathDiversityViolation
    | .routeSevered => .alternatePathLost
  makeBlocker code (if violation.subject.isEmpty then record.target.toString else violation.subject)
    (violation.detail ++ " required=" ++ toString violation.required ++ " remaining=" ++
      toString violation.remaining) now

/-- `validate_removal` of a drain's resource under the policy's headroom. -/
def removalViolation (w : World) (record : DrainRecord) : TopologyViolation :=
  w.topology.validateRemoval record.target.id w.policy.capacityHeadroomNumerator
    w.policy.capacityHeadroomDenominator

/-- The authority part of `evaluate_start`: the token is checked only while it
belongs to the live incarnation. -/
def authorityBlockers (w : World) (record : DrainRecord) (now : TimePoint) : List Blocker :=
  if record.authority = 0 then
    [makeBlocker .authorityInvalid "authority:none"
      "the drain was requested without an authority token" now]
  else
    match w.authority.find record.authority with
    | none => []
    | some token =>
      if token.incarnation = w.authority.incarnation then
        match w.requireAuthority record.authority now with
        | .ok _ => []
        | .error err => [makeBlocker .authorityInvalid
            ("authority:" ++ toString record.authority) err.message now]
      else []

/-- Has this drain not closed admission yet? -/
def isWaiting (other : DrainRecord) : Bool :=
  (other.state matches .requested | .validating) ||
    (other.state == .blocked &&
      other.blockedFrom.any (fun state => state matches .requested | .validating))

/-- The lowest-numbered other drain of the domain that is still waiting. -/
def frontmost (w : World) (record : DrainRecord) : Option DrainId :=
  ((w.drains.toList.filter (fun other =>
    other.id != record.id && other.target.domain == record.target.domain &&
      isWaiting other)).map DrainRecord.id).head?

/-- The first earlier member of the drain's set, in the same domain, that has not
settled. -/
def unsettledPredecessor (w : World) (record : DrainRecord) : Option DrainId :=
  if record.set ≠ 0 ∧ w.policy.serializeSameDomainInSet then
    match w.sets.find? record.set with
    | none => none
    | some set =>
      (set.members.takeWhile (fun member => member != record.id)).find? (fun member =>
        match w.drain member with
        | none => false
        | some other =>
          other.target.domain == record.target.domain && !isSettled other.state)
  else none

/-- `evaluate_start`. -/
def evaluateStart (w : World) (record : DrainRecord) (now : TimePoint) : List Blocker :=
  let node := w.topology.resource record.target.id
  let holding := w.activeDrainsInDomain record.target.domain record.id
  w.authorityBlockers record now ++
  (match w.fence.entry record.target with
    | some e =>
      if e.closed && e.drain != record.id then
        [makeBlocker .generationSuperseded record.target.toString
          "another drain holds the admission fence for this target" now]
      else []
    | none => []) ++
  (match node with
    | none => [makeBlocker .topologyInconsistent record.target.toString
        "the target is not present in the topology" now]
    | some node =>
      if node.isInService then []
      else [makeBlocker .topologyInconsistent record.target.toString
        "the target is already out of service" now]) ++
  (if holding ≥ w.policy.maxConcurrentDrainsPerDomain then
    [makeBlocker .domainLimitReached
      ("domain:" ++ (if record.target.domain.isEmpty then "<none>" else record.target.domain))
      ("failure domain already hosts " ++ toString holding ++
        " drain(s) holding an admission fence") now]
  else []) ++
  (match w.frontmost record with
    | some front =>
      if front < record.id then
        [makeBlocker .setPredecessorPending ("drain:" ++ toString front)
          "an earlier drain in the same failure domain has not closed admission yet" now]
      else []
    | none => []) ++
  (match w.unsettledPredecessor record with
    | some member => [makeBlocker .setPredecessorPending ("drain:" ++ toString member)
        "predecessor in the same failure domain has not settled" now]
    | none => []) ++
  (if node.any ResourceNode.isInService && !(w.removalViolation record).ok then
    [blockerFromViolation record (w.removalViolation record) now]
  else [])

/-- Does this obligation still have to be moved? -/
def isMoving (obligation : Obligation) : Bool :=
  obligation.state matches .admitted | .evacuating

/-- `evaluate_evacuation`. -/
def evaluateEvacuation (w : World) (record : DrainRecord) (now : TimePoint) : List Blocker :=
  let outstanding := w.outstandingFor record.target
  outstanding.filterMap (fun obligation =>
    let deadline := w.graceDeadlineFor record obligation
    if obligation.state = .failed then
      some (makeBlocker .obligationFailed obligation.label
        "the adjacent runtime reported that evacuation failed" now)
    else if now > deadline then
      some (makeBlocker .obligationGraceExpired obligation.label
        "the policy grace window expired without a release report" now deadline)
    else none) ++
  (if outstanding.any isMoving &&
      record.evacuationRequests ≥ w.policy.maxEvacuationAttempts then
    [makeBlocker .evacuationAttemptsExhausted ("drain:" ++ toString record.id)
      ("automatic evacuation retries are exhausted; an exception grant or a " ++
        "manual release report is required") now]
  else [])

/-- Why a release report does not prove the release of an obligation yet. -/
def releaseBlocker (w : World) (record : DrainRecord) (now : TimePoint)
    (obligation : Obligation) : Option Blocker :=
  if obligation.releaseEvidence = 0 then
    some (makeBlocker .releaseEvidenceMissing obligation.label
      "no release evidence was supplied with the release report" now)
  else
    match w.evidence.find (releaseKey record obligation.id) obligation.releaseEvidence with
    | none => some (makeBlocker .releaseEvidenceMissing obligation.label
        "the referenced release evidence record does not exist" now)
    | some evidence =>
      if ¬ EvidenceLedger.isFresh evidence (w.evidenceFence now) w.policy.evidenceFreshness then
        some (makeBlocker .releaseEvidenceStale obligation.label
          "the release evidence is quarantined, superseded, or older than the freshness window"
          now (saturatingAdd evidence.observedAt w.policy.evidenceFreshness))
      else if evidence.generation ≠ record.generation then
        some (makeBlocker .generationSuperseded obligation.label
          "the release evidence belongs to a different drain generation" now)
      else if evidence.observedAt < record.admissionClosedAt then
        some (makeBlocker .releaseEvidenceStale obligation.label
          ("the release evidence predates the admission boundary and cannot prove " ++
            "post-fence quiescence") now)
      else none

/-- Is the release report of this obligation one that can be proved? -/
def isReleased (obligation : Obligation) : Bool :=
  obligation.state matches .quiescing | .released

/-- The blocker, if any, an outstanding obligation contributes to
`evaluate_quiescence`. -/
def quiescenceBlocker (w : World) (record : DrainRecord) (now : TimePoint)
    (obligation : Obligation) : Option Blocker :=
  match obligation.state with
  | .admitted | .evacuating => some (makeBlocker .protectedObligationActive obligation.label
      "the obligation has not been evacuated yet" now (w.graceDeadlineFor record obligation))
  | .quiescing | .released => w.releaseBlocker record now obligation
  | .failed => some (makeBlocker .obligationFailed obligation.label
      "the adjacent runtime reported that evacuation failed" now)
  | .retired => none

/-- The obligations `evaluate_quiescence` finds ready to be retired. -/
def retirable (w : World) (record : DrainRecord) (now : TimePoint) : List ObligationId :=
  ((w.outstandingFor record.target).filter (fun obligation =>
    isReleased obligation && (w.releaseBlocker record now obligation).isNone)).map Obligation.id

/-- The removal part of `evaluate_quiescence`. -/
def removalBlockers (w : World) (record : DrainRecord) (now : TimePoint) : List Blocker :=
  match w.topology.resource record.target.id with
  | none => [makeBlocker .topologyInconsistent record.target.toString
      "the target disappeared before the removal step" now]
  | some node =>
    if node.status ≠ .inService then
      if w.removalOwnedBy record then []
      else [makeBlocker .topologyInconsistent record.target.toString
        "the target left service outside this drain, so this drain cannot claim its removal" now]
    else if (w.removalViolation record).ok then []
    else [blockerFromViolation record (w.removalViolation record) now]

/-- `evaluate_quiescence`; the obligations that can be retired are `retirable`. -/
def evaluateQuiescence (w : World) (record : DrainRecord) (now : TimePoint) : List Blocker :=
  let blockers := (w.outstandingFor record.target).filterMap (w.quiescenceBlocker record now)
  if ¬ blockers.isEmpty ∨ ¬ (w.retirable record now).isEmpty then blockers
  else w.removalBlockers record now

/-- The evidence part of `evaluate_verification`: the blocker, or the sequence of
the record that proves the removal. -/
def removalProof (w : World) (record : DrainRecord) (now : TimePoint) :
    Except Blocker EvidenceSeq :=
  let key := removalKey record
  match w.evidence.fresh key (w.evidenceFence now) w.policy.evidenceFreshness with
  | none => .error (makeBlocker .quiescenceEvidenceMissing key.label
      "no fresh removal evidence exists for this drain generation" now)
  | some candidate =>
    if candidate.generation ≠ record.generation then
      .error (makeBlocker .generationSuperseded key.label
        "the removal evidence belongs to a different drain generation" now)
    else if candidate.observedAt < record.admissionClosedAt then
      .error (makeBlocker .releaseEvidenceStale key.label
        "the removal evidence predates the admission boundary" now)
    else .ok candidate.seq

/-- `evaluate_verification`: the blockers and the proof. -/
def evaluateVerification (w : World) (record : DrainRecord) (now : TimePoint) :
    List Blocker × EvidenceSeq :=
  let outstanding := (w.outstandingFor record.target).map (fun obligation =>
    makeBlocker .protectedObligationActive obligation.label
      "a protected obligation still depends on the target" now)
  if ¬ outstanding.isEmpty then (outstanding, 0)
  else
    let removal := match w.topology.resource record.target.id with
      | none => [makeBlocker .topologyInconsistent record.target.toString
          "the target disappeared from the topology during verification" now]
      | some _ =>
        if w.removalOwnedBy record then []
        else [makeBlocker .topologyInconsistent record.target.toString
          ("the removal step of this drain has not taken the target out of " ++
            "service under this drain generation") now]
    if w.policy.requireQuiescenceEvidence then
      match w.removalProof record now with
      | .error blocker => (removal ++ [blocker], 0)
      | .ok seq => (removal, seq)
    else (removal, 0)

/-- `evaluate_state`. -/
def evaluateState (w : World) (record : DrainRecord) (state : DrainState) (now : TimePoint) :
    List Blocker :=
  match state with
  | .requested | .validating => w.evaluateStart record now
  | .evacuating => w.evaluateEvacuation record now
  | .quiescing => w.evaluateQuiescence record now
  | .verifying => (w.evaluateVerification record now).1
  | _ => []

/-! ### Digests -/

/-- `ObligationTable::digest`. -/
def obligationDigest (t : ObligationTable) : Nat :=
  (t.all.foldl (fun digest obligation =>
    let digest := digest.updateU64 obligation.id
    let digest := digest.updateTagged "kind" obligation.kind.toString
    let digest := digest.updateTagged "protection" obligation.protection.toString
    let digest := digest.updateTagged "state" obligation.state.toString
    let digest := digest.updateU64 obligation.revision
    let digest := digest.updateU64 obligation.reappearances
    let digest := digest.updateTagged "holder" obligation.holder
    obligation.dependencies.val.foldl (fun digest dep => digest.updateTagged "dep" dep.toString)
      digest)
    (({} : Digest64).updateU64 t.highWater)).value

/-- The numeric value of a resource status. -/
def statusRank : ResourceStatus → Nat
  | .inService => 0
  | .unavailable => 1
  | .failed => 2

/-- `authoritative_digest_locked`. -/
def authoritativeDigest (w : World) : Nat :=
  let digest := w.topology.resources.toList.foldl (fun digest node =>
    (((digest.updateTagged "resource" node.id).updateU64 (statusRank node.status)).updateU64
      node.capacity).updateU64 node.reserved) ({} : Digest64)
  let digest := digest.updateU64 (obligationDigest w.obligations)
  let digest := w.drains.toList.foldl (fun digest record =>
    (((digest.updateU64 record.id).updateU64 record.state.rank).updateU64
      record.generation).updateU64 record.restoreGeneration) digest
  (w.fence.entries.toList.foldl (fun digest (target, entry) =>
    ((digest.updateTagged "fence" target.toString).updateBool entry.closed).updateU64
      entry.generation) digest).value

end World

end DrainFabric
