import DrainFabric.Identity
import DrainFabric.Lib.Table

/-!
# The drain lifecycle

`lifecycle.hpp`: the state of one drain, its blockers, and the record that carries
both.

* `isLegalDrainTransition`, `DrainRecord.transition` — the only writer of the state;
* `DrainRecord.phase` — the state with `Blocked` looked through: where the drain
  stands, or where it will resume;
* `persisted` — what of a record survives a restart.
-/

namespace DrainFabric

open Lib

inductive DrainState
  | requested | validating | admissionClosed | evacuating | quiescing | verifying | drained
  | blocked | cancelled | failed | restoring
  deriving DecidableEq, Repr

variable {next : DrainState}

namespace DrainState

/-- The numeric value of the enumerator. -/
def rank : DrainState → Nat
  | requested => 0
  | validating => 1
  | admissionClosed => 2
  | evacuating => 3
  | quiescing => 4
  | verifying => 5
  | drained => 6
  | blocked => 7
  | cancelled => 8
  | failed => 9
  | restoring => 10

def toString : DrainState → String
  | requested => "requested"
  | validating => "validating"
  | admissionClosed => "admission-closed"
  | evacuating => "evacuating"
  | quiescing => "quiescing"
  | verifying => "verifying"
  | drained => "drained"
  | blocked => "blocked"
  | cancelled => "cancelled"
  | failed => "failed"
  | restoring => "restoring"

/-- `drain_state_from_string`. -/
def fromString (text : String) : Option DrainState :=
  if text = "requested" then some requested
  else if text = "validating" then some validating
  else if text = "admission-closed" then some admissionClosed
  else if text = "evacuating" then some evacuating
  else if text = "quiescing" then some quiescing
  else if text = "verifying" then some verifying
  else if text = "drained" then some drained
  else if text = "blocked" then some blocked
  else if text = "cancelled" then some cancelled
  else if text = "failed" then some failed
  else if text = "restoring" then some restoring
  else none

@[simp] theorem fromString_toString (state : DrainState) :
    fromString state.toString = some state := by
  cases state <;> decide

end DrainState

/-- `is_settled`. -/
def isSettled (state : DrainState) : Bool :=
  state matches .drained | .cancelled | .failed

/-- `is_legal_drain_transition`. -/
def isLegalDrainTransition (source next : DrainState) : Bool :=
  source == next ||
  match source with
  | .requested => (next matches .validating | .blocked | .cancelled | .failed)
  | .validating => (next matches .admissionClosed | .blocked | .cancelled | .failed)
  | .admissionClosed => (next matches .evacuating | .quiescing | .blocked | .cancelled | .failed)
  | .evacuating => (next matches .quiescing | .blocked | .cancelled | .failed)
  | .quiescing => (next matches .verifying | .evacuating | .blocked | .cancelled | .failed)
  | .verifying => (next matches .drained | .quiescing | .blocked | .cancelled | .failed)
  | .blocked => (next matches .requested | .validating | .admissionClosed | .evacuating | .quiescing
      | .verifying | .cancelled | .failed | .restoring)
  | .cancelled => (next matches .restoring | .failed)
  | .failed => (next matches .restoring | .cancelled)
  | .restoring => (next matches .cancelled | .failed | .blocked)
  | .drained => (next matches .restoring)

/-! ### Blockers -/

inductive BlockerCode
  | admissionFenceMissing | protectedObligationActive | obligationGraceExpired
  | releaseEvidenceMissing | releaseEvidenceStale | domainLimitReached | correlatedDrainConflict
  | capacityInsufficient | redundancyViolation | pathDiversityViolation | alternatePathLost
  | authorityInvalid | generationSuperseded | evacuationAttemptsExhausted | obligationReappeared
  | restartRecoveryPending | topologyInconsistent | policyRevisionMismatch
  | setPredecessorPending | obligationFailed | quiescenceEvidenceMissing
  deriving DecidableEq, Repr

namespace BlockerCode

/-- The codes in the order of their enumerators. -/
def all : List BlockerCode :=
  [admissionFenceMissing, protectedObligationActive, obligationGraceExpired,
    releaseEvidenceMissing, releaseEvidenceStale, domainLimitReached, correlatedDrainConflict,
    capacityInsufficient, redundancyViolation, pathDiversityViolation, alternatePathLost,
    authorityInvalid, generationSuperseded, evacuationAttemptsExhausted, obligationReappeared,
    restartRecoveryPending, topologyInconsistent, policyRevisionMismatch, setPredecessorPending,
    obligationFailed, quiescenceEvidenceMissing]

/-- The numeric value of the enumerator. -/
def rank (code : BlockerCode) : Nat := all.idxOf code

def toString : BlockerCode → String
  | admissionFenceMissing => "admission-fence-missing"
  | protectedObligationActive => "protected-obligation-active"
  | obligationGraceExpired => "obligation-grace-expired"
  | releaseEvidenceMissing => "release-evidence-missing"
  | releaseEvidenceStale => "release-evidence-stale"
  | domainLimitReached => "domain-limit-reached"
  | correlatedDrainConflict => "correlated-drain-conflict"
  | capacityInsufficient => "capacity-insufficient"
  | redundancyViolation => "redundancy-violation"
  | pathDiversityViolation => "path-diversity-violation"
  | alternatePathLost => "alternate-path-lost"
  | authorityInvalid => "authority-invalid"
  | generationSuperseded => "generation-superseded"
  | evacuationAttemptsExhausted => "evacuation-attempts-exhausted"
  | obligationReappeared => "obligation-reappeared"
  | restartRecoveryPending => "restart-recovery-pending"
  | topologyInconsistent => "topology-inconsistent"
  | policyRevisionMismatch => "policy-revision-mismatch"
  | setPredecessorPending => "set-predecessor-pending"
  | obligationFailed => "obligation-failed"
  | quiescenceEvidenceMissing => "quiescence-evidence-missing"

/-- The loop of `Blocker::from_json`: the first code with this text. -/
def fromString (text : String) : Option BlockerCode :=
  all.find? (fun code => decide (text = code.toString))

end BlockerCode

structure Blocker where
  code : BlockerCode := .protectedObligationActive
  subject : String := ""
  detail : String := ""
  since : TimePoint := 0
  deadline : TimePoint := 0
  deriving DecidableEq, Repr

namespace Blocker

/-- `operator==`: code and subject only. -/
def same (a b : Blocker) : Bool := a.code == b.code && a.subject == b.subject

/-- `operator<`. -/
def less (a b : Blocker) : Bool :=
  if a.code ≠ b.code then a.code.rank < b.code.rank else a.subject < b.subject

/-- Sort, then drop every blocker equal to its predecessor. -/
def normalize (blockers : List Blocker) : List Blocker :=
  (blockers.insertionSort (fun a b => ¬ Less less b a)).destutter (fun a b => ¬ a.same b)

/-- `to_json`. -/
def toJson (b : Blocker) : JsonValue :=
  .object [("code", .string b.code.toString), ("subject", .string b.subject),
    ("detail", .string b.detail), ("since_ns", .ofCount b.since),
    ("deadline_ns", .ofCount b.deadline)]

/-- `from_json`. -/
def fromJson (value : JsonValue) : Result Blocker := do
  rejectIf (¬ value.isObject) .persistenceCorrupt "blocker entry is not an object"
  let code ← orFail (BlockerCode.fromString (value.getString "code"))
    .persistenceCorrupt "unknown blocker code in snapshot"
  return { code, subject := value.getString "subject", detail := value.getString "detail",
           since := value.readI64 "since_ns", deadline := value.readI64 "deadline_ns" }

/-- `render`. -/
def render (b : Blocker) : String :=
  b.code.toString ++ " subject=" ++ b.subject ++ " since=" ++ describeTime b.since ++
    (if b.deadline ≠ 0 then " deadline=" ++ describeTime b.deadline else "") ++
    (if b.detail.isEmpty then "" else " detail=" ++ b.detail)

end Blocker

/-! ### Drain records -/

structure DrainRecord where
  id : DrainId := 0
  set : DrainSetId := 0
  target : DrainTarget := {}
  generation : Generation := 0
  restoreGeneration : Generation := 0
  attempt : Attempt := 0
  revision : Revision := 1
  state : DrainState := .requested
  blockedFrom : Option DrainState := none
  authority : AuthorityId := 0
  node : NodeId := ""
  requestedAt : TimePoint := 0
  stateSince : TimePoint := 0
  admissionClosedAt : TimePoint := 0
  completedAt : TimePoint := 0
  restoredAt : TimePoint := 0
  lastEvacuationAt : TimePoint := 0
  evacuationRequests : Nat := 0
  remainingProtectedAtCompletion : Nat := 0
  completionDigest : Nat := 0
  completionEvidence : EvidenceSeq := 0
  reason : String := ""
  terminalDetail : String := ""
  blockers : List Blocker := []
  deriving DecidableEq, Repr

variable {r : DrainRecord}

namespace DrainRecord

/-- The constructor `DrainRecord(id, target, generation, authority, at)`. -/
def make (id : DrainId) (target : DrainTarget) (generation : Generation)
    (authority : AuthorityId) (at_ : TimePoint) : DrainRecord :=
  { id, target, generation, authority, requestedAt := at_, stateSince := at_ }

/-- What an accepted `transition` writes. -/
def moved (r : DrainRecord) (next : DrainState) (at_ : TimePoint) (detail : String) :
    DrainRecord :=
  { r with
    blockedFrom := if next = .blocked then some r.state
                   else if r.state = .blocked then none else r.blockedFrom
    blockers := if next ≠ .blocked ∧ r.state = .blocked then [] else r.blockers
    state := next
    stateSince := at_
    revision := r.revision + 1
    admissionClosedAt := if next = .admissionClosed then at_ else r.admissionClosedAt
    terminalDetail := if isSettled next then detail
                      else if next = .restoring then "" else r.terminalDetail }

/-- `transition`. -/
def transition (r : DrainRecord) (next : DrainState) (at_ : TimePoint) (detail : String) :
    Result DrainRecord :=
  if next = r.state then .ok r
  else if ¬ isLegalDrainTransition r.state next then
    fail .illegalTransition ("drain " ++ toString r.id ++ " cannot move from " ++
      r.state.toString ++ " to " ++ next.toString)
  else if r.revision = u64Max then
    fail .boundsExceeded ("drain " ++ toString r.id ++ " revision space exhausted")
  else .ok (r.moved next at_ detail)

/-- `set_blockers`. -/
def setBlockers (r : DrainRecord) (blockers : List Blocker) : DrainRecord :=
  { r with blockers := Blocker.normalize blockers }

/-- `record_completion`. -/
def recordCompletion (r : DrainRecord) (at_ : TimePoint) (remainingProtected digest : Nat)
    (evidence : EvidenceSeq) : Result DrainRecord :=
  if remainingProtected ≠ 0 then
    fail .protectedObligationRemains ("refusing to complete drain " ++ toString r.id ++ ": " ++
      toString remainingProtected ++ " protected dependencies remain on " ++ r.target.toString)
  else
    .ok { r with completedAt := at_, remainingProtectedAtCompletion := remainingProtected,
                 completionDigest := digest, completionEvidence := evidence }

/-- `note_evacuation_attempt`. -/
def noteEvacuationAttempt (r : DrainRecord) (at_ : TimePoint) : DrainRecord :=
  { r with lastEvacuationAt := at_, evacuationRequests := (r.evacuationRequests + 1) % 2 ^ 32 }

/-- `mark_restored`. -/
def markRestored (r : DrainRecord) (at_ : TimePoint) (reopenedGeneration : Generation) :
    DrainRecord :=
  { r with restoredAt := at_, restoreGeneration := reopenedGeneration }

/-- `reset_evacuation_attempts`. -/
def resetEvacuationAttempts (r : DrainRecord) : DrainRecord := { r with evacuationRequests := 0 }

/-- `to_json`; the member `blocked_from` is written only when it is set. -/
def toJson (r : DrainRecord) : JsonValue :=
  .object ([("id", .uint r.id), ("set", .uint r.set), ("target", r.target.toJson),
    ("generation", .uint r.generation), ("restore_generation", .uint r.restoreGeneration),
    ("attempt", .uint r.attempt), ("revision", .uint r.revision),
    ("state", .string r.state.toString)] ++
    (match r.blockedFrom with
      | some state => [("blocked_from", .string state.toString)]
      | none => []) ++
    [("authority", .uint r.authority), ("node", .string r.node),
    ("requested_at_ns", .ofCount r.requestedAt), ("state_since_ns", .ofCount r.stateSince),
    ("admission_closed_at_ns", .ofCount r.admissionClosedAt),
    ("completed_at_ns", .ofCount r.completedAt), ("restored_at_ns", .ofCount r.restoredAt),
    ("last_evacuation_at_ns", .ofCount r.lastEvacuationAt),
    ("evacuation_requests", .uint r.evacuationRequests),
    ("remaining_protected_at_completion", .uint r.remainingProtectedAtCompletion),
    ("completion_digest", .uint r.completionDigest),
    ("completion_evidence", .uint r.completionEvidence), ("reason", .string r.reason),
    ("terminal_detail", .string r.terminalDetail),
    ("blockers", .array (r.blockers.map Blocker.toJson))])

/-- The state a blocked record resumes to, as `from_json` reads it. -/
def readBlockedFrom (value : JsonValue) (state : DrainState) : Result (Option DrainState) :=
  match value.findString "blocked_from" with
  | some text => do
    let parsed ← orFail (DrainState.fromString text)
      .persistenceCorrupt "drain record has an unknown blocked_from state"
    return some parsed
  | none => do
    rejectIf (state = .blocked) .persistenceCorrupt "blocked drain record lacks blocked_from"
    return none

/-- `from_json`. The stored revision is not read: a recovered record starts at
revision one. -/
def fromJson (value : JsonValue) : Result DrainRecord := do
  rejectIf (¬ value.isObject) .persistenceCorrupt "drain record is not an object"
  let target ← (DrainTarget.fromJson ((value.find "target").getD .null)).mapError (fun err =>
    ⟨.persistenceCorrupt, "drain record target rejected: " ++ err.message⟩)
  let state ← orFail (DrainState.fromString (value.getString "state"))
    .persistenceCorrupt "drain record has an unknown state"
  let id := value.readU64 "id"
  rejectIf (id = 0) .persistenceCorrupt "drain record has a reserved zero id"
  let node ← optionalSlug value "node"
    .persistenceCorrupt "drain record has a malformed node id"
  let evacuationRequests := value.readU64 "evacuation_requests"
  rejectIf (evacuationRequests > 1000000)
    .boundsExceeded "drain record evacuation counter exceeds bound"
  let blockedFrom ← readBlockedFrom value state
  let blockers ← ((value.findArray "blockers").getD []).mapM Blocker.fromJson
  let remaining := value.readU64 "remaining_protected_at_completion" % 2 ^ 32
  let digest := value.readU64 "completion_digest"
  rejectIf (state = .drained ∧ remaining ≠ 0)
    .persistenceCorrupt "drained record claims outstanding protected dependencies"
  rejectIf (state = .drained ∧ digest = 0)
    .persistenceCorrupt "drained record lacks a completion digest"
  return { id, set := value.readU64 "set", target, generation := value.readU64 "generation",
           restoreGeneration := value.readU64 "restore_generation",
           attempt := value.readU64 "attempt" % 2 ^ 32, state, blockedFrom,
           authority := value.readU64 "authority", node,
           requestedAt := value.readI64 "requested_at_ns",
           stateSince := value.readI64 "state_since_ns",
           admissionClosedAt := value.readI64 "admission_closed_at_ns",
           completedAt := value.readI64 "completed_at_ns",
           restoredAt := value.readI64 "restored_at_ns",
           lastEvacuationAt := value.readI64 "last_evacuation_at_ns", evacuationRequests,
           remainingProtectedAtCompletion := remaining, completionDigest := digest,
           completionEvidence := value.readU64 "completion_evidence",
           reason := value.getString "reason",
           terminalDetail := value.getString "terminal_detail",
           blockers := Blocker.normalize blockers }

/-! ### Lemmas -/

/-- An accepted transition is a repeat that changes nothing, or a legal move. -/
theorem transition_ok {r' : DrainRecord} {at_ : TimePoint} {detail : String}
    (h : r.transition next at_ detail = .ok r') :
    (next = r.state ∧ r' = r) ∨
      (next ≠ r.state ∧ isLegalDrainTransition r.state next = true ∧ r.revision ≠ u64Max ∧
        r' = r.moved next at_ detail) := by
  unfold transition at h
  split_ifs at h with hsame hlegal hmax
  · exact Or.inl ⟨hsame, (Except.ok.inj h).symm⟩
  · exact absurd h fail_ne_ok
  · exact Or.inr ⟨hsame, hlegal, hmax, (Except.ok.inj h).symm⟩
  · exact absurd h fail_ne_ok

/-- A legal transition only fails on an exhausted revision. -/
theorem revision_of_transition_error {at_ : TimePoint} {detail : String} {err : Error}
    (h : r.transition next at_ detail = .error err)
    (hlegal : isLegalDrainTransition r.state next = true) : r.revision = u64Max := by
  unfold transition at h
  split_ifs at h with hsame hmax
  · exact hmax

/-- The lifecycle position with `Blocked` looked through: where the drain stands
or, when it is blocked, where it will resume. -/
def phase (r : DrainRecord) : DrainState :=
  if r.state = .blocked then r.blockedFrom.getD .validating else r.state

theorem phase_of_not_blocked (h : r.state ≠ .blocked) : r.phase = r.state := by
  rw [phase, if_neg h]

theorem phase_of_state {state : DrainState} (h : r.state = state) (hne : state ≠ .blocked) :
    r.phase = state := by
  rw [phase_of_not_blocked (h ▸ hne), h]

/-- Blocking a drain keeps its phase. -/
theorem phase_moved_blocked (h : r.state ≠ .blocked) (at_ : TimePoint) (detail : String) :
    (r.moved .blocked at_ detail).phase = r.phase := by
  simp [phase, moved, h]

theorem phase_moved (h : next ≠ .blocked) (at_ : TimePoint) (detail : String) :
    (r.moved next at_ detail).phase = next := by
  simp [phase, moved, h]

/-- The record a restart recovers, before it is conservatively blocked. -/
def persisted (r : DrainRecord) : DrainRecord :=
  { r with revision := 1, attempt := r.attempt % 2 ^ 32,
           requestedAt := persistedCount r.requestedAt, stateSince := persistedCount r.stateSince,
           admissionClosedAt := persistedCount r.admissionClosedAt,
           completedAt := persistedCount r.completedAt, restoredAt := persistedCount r.restoredAt,
           lastEvacuationAt := persistedCount r.lastEvacuationAt,
           remainingProtectedAtCompletion := r.remainingProtectedAtCompletion % 2 ^ 32 }

end DrainRecord

end DrainFabric
