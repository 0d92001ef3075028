import DrainFabric.Obligation

/-!
# Policy

`policy.hpp`: the bounds and switches the engine runs under. A policy document may
lower the hard caps, never raise them; `validate` is what enforces that.
-/

namespace DrainFabric

open Lib

def hardMaxTargetsPerRequest : Nat := 256
def hardMaxDrainsInSet : Nat := 256
def hardMaxConcurrentDrainsPerDomain : Nat := 64
def hardMaxObligations : Nat := 1000000
def hardMaxEvidenceRecords : Nat := 1000000
def hardMaxDecisionsRetained : Nat := 100000
def hardMaxBlockersPerDrain : Nat := 256
def hardMaxEvacuationAttempts : Nat := 1000
def hardMaxExceptionExtensions : Nat := 64
def hardMaxSnapshotBytes : Nat := 256 * 1024 * 1024
def hardMaxFrameBytes : Nat := 16 * 1024 * 1024
def hardMaxConnections : Nat := 4096
def hardMaxWorkerThreads : Nat := 256

/-- Nanoseconds in a second. -/
def second : Duration := 1000000000

/-- The kinds in the order of their enumerators. -/
def ObligationKind.all : List ObligationKind :=
  [.activeFlow, .reservation, .workloadNetworkContract, .pathDiversityCommitment,
    .capacityGuarantee, .supplied]

theorem ObligationKind.mem_all (kind : ObligationKind) : kind ∈ ObligationKind.all := by
  cases kind <;> decide

/-- Grace periods are compared kind by kind. -/
instance : DecidableEq (ObligationKind → Duration) := fun f g =>
  decidable_of_iff (∀ kind ∈ ObligationKind.all, f kind = g kind)
    ⟨fun h => funext (fun kind => h kind kind.mem_all), fun h _ _ => congrFun h _⟩

structure DrainPolicy where
  name : String := "default"
  revision : Revision := 1
  maxTargetsPerRequest : Nat := 64
  maxDrainsInSet : Nat := 32
  maxConcurrentDrainsPerDomain : Nat := 1
  serializeSameDomainInSet : Bool := true
  maxObligations : Nat := 100000
  maxEvidenceRecords : Nat := 200000
  maxDecisionsRetained : Nat := 4096
  maxBlockersPerDrain : Nat := 64
  maxEvacuationAttempts : Nat := 8
  maxExceptionExtensions : Nat := 4
  admissionFenceSettle : Duration := 0
  evidenceFreshness : Duration := 300 * second
  evacuationRetryInterval : Duration := 5 * second
  evidenceClockSkew : Duration := 5 * second
  defaultGrace : Duration := 3600 * second
  graceByKind : ObligationKind → Duration := fun _ => 0
  capacityHeadroomNumerator : Nat := 1
  capacityHeadroomDenominator : Nat := 1
  requiredPathDiversity : MemberCount := 1
  requireReleaseEvidence : Bool := true
  requireQuiescenceEvidence : Bool := true
  evidenceRequiresLiveIncarnation : Bool := true
  reobserveRemovalEvidence : Bool := true
  maxSnapshotBytes : ByteCount := 32 * 1024 * 1024
  maxFrameBytes : ByteCount := 1024 * 1024
  maxConnections : Nat := 64
  maxWorkerThreads : Nat := 8
  maxPendingWork : Nat := 1024
  deriving DecidableEq

variable {p : DrainPolicy}

namespace DrainPolicy

/-- Two policies are compared with their grace periods apart. -/
theorem eq_iff {q : DrainPolicy} :
    p = q ↔ { p with graceByKind := q.graceByKind } = q ∧ p.graceByKind = q.graceByKind := by
  constructor
  · rintro rfl
    exact ⟨rfl, rfl⟩
  · rintro ⟨hrest, hgrace⟩
    rw [← hrest, ← hgrace]

/-- `defaults`. -/
def defaults : DrainPolicy := {}

/-- `grace_for_kind`. -/
def graceForKind (p : DrainPolicy) (kind : ObligationKind) : Duration :=
  if p.graceByKind kind = 0 then p.defaultGrace else p.graceByKind kind

/-- `grace_for`. -/
def graceFor (p : DrainPolicy) (obligation : Obligation) : Duration :=
  if obligation.grace = 0 then p.graceForKind obligation.kind else obligation.grace

/-- The check `field == 0 || field > cap` most fields go through. -/
def checkRange (field : String) (value cap : Nat) : Status :=
  rejectIf (value = 0 ∨ value > cap) .policyViolation (field ++ " is outside the supported range")

/-- What `checkRange` accepts. -/
def InRange (value cap : Nat) : Prop := 0 < value ∧ value ≤ cap

theorem checkRange_eq_ok {field : String} {value cap : Nat} {u : Unit} :
    checkRange field value cap = .ok u ↔ InRange value cap := by
  rw [checkRange, rejectIf_eq_ok, not_or, not_lt, InRange, Nat.pos_iff_ne_zero]

/-- `validate`. -/
def validate (p : DrainPolicy) : Status := do
  rejectIf (p.name.isEmpty ∨ p.name.length > 128)
    .policyViolation "policy name must be non-empty and at most 128 bytes"
  checkRange "max_targets_per_request" p.maxTargetsPerRequest hardMaxTargetsPerRequest
  checkRange "max_drains_in_set" p.maxDrainsInSet hardMaxDrainsInSet
  checkRange "max_concurrent_drains_per_domain" p.maxConcurrentDrainsPerDomain
    hardMaxConcurrentDrainsPerDomain
  checkRange "max_obligations" p.maxObligations hardMaxObligations
  checkRange "max_evidence_records" p.maxEvidenceRecords hardMaxEvidenceRecords
  checkRange "max_decisions_retained" p.maxDecisionsRetained hardMaxDecisionsRetained
  checkRange "max_blockers_per_drain" p.maxBlockersPerDrain hardMaxBlockersPerDrain
  checkRange "max_evacuation_attempts" p.maxEvacuationAttempts hardMaxEvacuationAttempts
  rejectIf (p.maxExceptionExtensions > hardMaxExceptionExtensions)
    .policyViolation "max_exception_extensions is outside the supported range"
  rejectIf (p.admissionFenceSettle < 0)
    .policyViolation "admission_fence_settle must not be negative"
  rejectIf (p.evidenceFreshness ≤ 0) .policyViolation "evidence_freshness must be positive"
  rejectIf (p.evacuationRetryInterval < 0)
    .policyViolation "evacuation_retry_interval must not be negative"
  rejectIf (p.evidenceClockSkew < 0) .policyViolation "evidence_clock_skew must not be negative"
  rejectIf (p.defaultGrace ≤ 0) .policyViolation "default_grace must be positive"
  rejectIf (ObligationKind.all.any (fun kind => p.graceByKind kind < 0))
    .policyViolation "per-kind grace must not be negative"
  rejectIf (p.capacityHeadroomDenominator = 0)
    .policyViolation "capacity headroom denominator must be non-zero"
  rejectIf (p.capacityHeadroomNumerator = 0)
    .policyViolation "capacity headroom numerator must be non-zero"
  rejectIf (p.requiredPathDiversity = 0)
    .policyViolation "required_path_diversity must be at least one"
  checkRange "max_snapshot_bytes" p.maxSnapshotBytes hardMaxSnapshotBytes
  checkRange "max_frame_bytes" p.maxFrameBytes hardMaxFrameBytes
  checkRange "max_connections" p.maxConnections hardMaxConnections
  checkRange "max_worker_threads" p.maxWorkerThreads hardMaxWorkerThreads
  checkRange "max_pending_work" p.maxPendingWork 1000000

/-- What `validate` accepts. -/
structure Valid (p : DrainPolicy) : Prop where
  name : ¬ (p.name.isEmpty ∨ p.name.length > 128)
  maxTargetsPerRequest : InRange p.maxTargetsPerRequest hardMaxTargetsPerRequest
  maxDrainsInSet : InRange p.maxDrainsInSet hardMaxDrainsInSet
  maxConcurrentDrainsPerDomain :
    InRange p.maxConcurrentDrainsPerDomain hardMaxConcurrentDrainsPerDomain
  maxObligations : InRange p.maxObligations hardMaxObligations
  maxEvidenceRecords : InRange p.maxEvidenceRecords hardMaxEvidenceRecords
  maxDecisionsRetained : InRange p.maxDecisionsRetained hardMaxDecisionsRetained
  maxBlockersPerDrain : InRange p.maxBlockersPerDrain hardMaxBlockersPerDrain
  maxEvacuationAttempts : InRange p.maxEvacuationAttempts hardMaxEvacuationAttempts
  maxExceptionExtensions : p.maxExceptionExtensions ≤ hardMaxExceptionExtensions
  admissionFenceSettle : 0 ≤ p.admissionFenceSettle
  evidenceFreshness : 0 < p.evidenceFreshness
  evacuationRetryInterval : 0 ≤ p.evacuationRetryInterval
  evidenceClockSkew : 0 ≤ p.evidenceClockSkew
  defaultGrace : 0 < p.defaultGrace
  graceByKind : ∀ kind, 0 ≤ p.graceByKind kind
  capacityHeadroomDenominator : p.capacityHeadroomDenominator ≠ 0
  capacityHeadroomNumerator : p.capacityHeadroomNumerator ≠ 0
  requiredPathDiversity : p.requiredPathDiversity ≠ 0
  maxSnapshotBytes : InRange p.maxSnapshotBytes hardMaxSnapshotBytes
  maxFrameBytes : InRange p.maxFrameBytes hardMaxFrameBytes
  maxConnections : InRange p.maxConnections hardMaxConnections
  maxWorkerThreads : InRange p.maxWorkerThreads hardMaxWorkerThreads
  maxPendingWork : InRange p.maxPendingWork 1000000

theorem validate_eq_ok : p.validate = .ok () ↔ p.Valid := by
  have hgraces : ¬ ObligationKind.all.any (fun kind => p.graceByKind kind < 0) = true ↔
      ∀ kind, 0 ≤ p.graceByKind kind := by
    simp only [List.any_eq_true, decide_eq_true_eq, not_exists, not_and, not_lt]
    exact ⟨fun h kind => h kind kind.mem_all, fun h kind _ => h kind⟩
  simp only [validate, bind_eq_ok, rejectIf_eq_ok, checkRange_eq_ok, hgraces, exists_const,
    not_lt, not_le, gt_iff_lt]
  constructor <;>
  · rintro ⟨h1, h2, h3, h4, h5, h6, h7, h8, h9, h10, h11, h12, h13, h14, h15, h16, h17, h18, h19,
      h20, h21, h22, h23, h24⟩
    exact ⟨h1, h2, h3, h4, h5, h6, h7, h8, h9, h10, h11, h12, h13, h14, h15, h16, h17, h18, h19,
      h20, h21, h22, h23, h24⟩

/-- The default policy passes its own check. -/
theorem validate_defaults : validate defaults = .ok () := by decide

/-- `fingerprint`: the digest of every field in declaration order. -/
def fingerprint (p : DrainPolicy) : String :=
  let digest := (({} : Digest64).updateTagged "name" p.name).updateU64 p.revision
  let digest := digest.updateU64 p.maxTargetsPerRequest
  let digest := digest.updateU64 p.maxDrainsInSet
  let digest := digest.updateU64 p.maxConcurrentDrainsPerDomain
  let digest := digest.updateBool p.serializeSameDomainInSet
  let digest := digest.updateU64 p.maxObligations
  let digest := digest.updateU64 p.maxEvidenceRecords
  let digest := digest.updateU64 p.maxDecisionsRetained
  let digest := digest.updateU64 p.maxBlockersPerDrain
  let digest := digest.updateU64 p.maxEvacuationAttempts
  let digest := digest.updateU64 p.maxExceptionExtensions
  let digest := digest.updateU64 (castU64 p.admissionFenceSettle)
  let digest := digest.updateU64 (castU64 p.evidenceFreshness)
  let digest := digest.updateU64 (castU64 p.evacuationRetryInterval)
  let digest := digest.updateU64 (castU64 p.evidenceClockSkew)
  let digest := digest.updateU64 (castU64 p.defaultGrace)
  let digest := ObligationKind.all.foldl
    (fun digest kind => digest.updateU64 (castU64 (p.graceByKind kind))) digest
  let digest := digest.updateU64 p.capacityHeadroomNumerator
  let digest := digest.updateU64 p.capacityHeadroomDenominator
  let digest := digest.updateU64 p.requiredPathDiversity
  let digest := digest.updateBool p.requireReleaseEvidence
  let digest := digest.updateBool p.requireQuiescenceEvidence
  let digest := digest.updateBool p.evidenceRequiresLiveIncarnation
  let digest := digest.updateBool p.reobserveRemovalEvidence
  let digest := digest.updateU64 p.maxSnapshotBytes
  let digest := digest.updateU64 p.maxFrameBytes
  let digest := digest.updateU64 p.maxConnections
  let digest := digest.updateU64 p.maxWorkerThreads
  let digest := digest.updateU64 p.maxPendingWork
  hexU64 digest.value

/-- `to_json`. -/
def toJson (p : DrainPolicy) : JsonValue :=
  .object [("name", .string p.name), ("revision", .uint p.revision),
    ("max_targets_per_request", .uint p.maxTargetsPerRequest),
    ("max_drains_in_set", .uint p.maxDrainsInSet),
    ("max_concurrent_drains_per_domain", .uint p.maxConcurrentDrainsPerDomain),
    ("serialize_same_domain_in_set", .bool p.serializeSameDomainInSet),
    ("max_obligations", .uint p.maxObligations),
    ("max_evidence_records", .uint p.maxEvidenceRecords),
    ("max_decisions_retained", .uint p.maxDecisionsRetained),
    ("max_blockers_per_drain", .uint p.maxBlockersPerDrain),
    ("max_evacuation_attempts", .uint p.maxEvacuationAttempts),
    ("max_exception_extensions", .uint p.maxExceptionExtensions),
    ("admission_fence_settle_ns", .ofCount p.admissionFenceSettle),
    ("evidence_freshness_ns", .ofCount p.evidenceFreshness),
    ("evacuation_retry_interval_ns", .ofCount p.evacuationRetryInterval),
    ("evidence_clock_skew_ns", .ofCount p.evidenceClockSkew),
    ("default_grace_ns", .ofCount p.defaultGrace),
    ("grace_by_kind_ns", .object (ObligationKind.all.map (fun kind =>
      (kind.toString, .ofCount (p.graceByKind kind))))),
    ("capacity_headroom_numerator", .uint p.capacityHeadroomNumerator),
    ("capacity_headroom_denominator", .uint p.capacityHeadroomDenominator),
    ("required_path_diversity", .uint p.requiredPathDiversity),
    ("require_release_evidence", .bool p.requireReleaseEvidence),
    ("require_quiescence_evidence", .bool p.requireQuiescenceEvidence),
    ("evidence_requires_live_incarnation", .bool p.evidenceRequiresLiveIncarnation),
    ("reobserve_removal_evidence", .bool p.reobserveRemovalEvidence),
    ("max_snapshot_bytes", .uint p.maxSnapshotBytes),
    ("max_frame_bytes", .uint p.maxFrameBytes),
    ("max_connections", .uint p.maxConnections),
    ("max_worker_threads", .uint p.maxWorkerThreads),
    ("max_pending_work", .uint p.maxPendingWork),
    ("fingerprint", .string p.fingerprint)]

/-- The lambda `sized` of `from_json`. -/
def sized (value : JsonValue) (key : String) (fallback : Nat) : Result Nat :=
  let raw := value.readU64 key fallback
  if raw > u64Max then
    fail .policyViolation ("policy field " ++ key ++ " does not fit the platform size type")
  else .ok raw

/-- The per-kind graces of a policy document; an absent entry stays zero. -/
def readGraces (graces : JsonValue) (sofar : ObligationKind → Duration) (kind : ObligationKind) :
    Result (ObligationKind → Duration) :=
  match graces.find kind.toString with
  | none => .ok sofar
  | some entry =>
    if ¬ entry.isNumber then .ok sofar
    else if entry.asInt (-1) < 0 then
      fail .policyViolation "per-kind grace must not be negative"
    else .ok (fun k => if k = kind then entry.asInt (-1) else sofar k)

/-- `from_json`. -/
def fromJson (value : JsonValue) : Result DrainPolicy := do
  rejectIf (¬ value.isObject) .policyViolation "policy document must be a json object"
  let revision := value.readU64 "revision" defaults.revision
  rejectIf (revision = 0) .policyViolation "policy revision must be non-zero"
  let maxTargetsPerRequest ← sized value "max_targets_per_request" defaults.maxTargetsPerRequest
  let maxDrainsInSet ← sized value "max_drains_in_set" defaults.maxDrainsInSet
  let maxConcurrentDrainsPerDomain ← sized value "max_concurrent_drains_per_domain"
    defaults.maxConcurrentDrainsPerDomain
  let maxObligations ← sized value "max_obligations" defaults.maxObligations
  let maxEvidenceRecords ← sized value "max_evidence_records" defaults.maxEvidenceRecords
  let maxDecisionsRetained ← sized value "max_decisions_retained" defaults.maxDecisionsRetained
  let maxBlockersPerDrain ← sized value "max_blockers_per_drain" defaults.maxBlockersPerDrain
  let maxEvacuationAttempts ← orFail
    (narrowChecked32 (value.readU64 "max_evacuation_attempts" defaults.maxEvacuationAttempts))
    .policyViolation "max_evacuation_attempts does not fit a 32-bit counter"
  let maxExceptionExtensions ← orFail
    (narrowChecked32 (value.readU64 "max_exception_extensions" defaults.maxExceptionExtensions))
    .policyViolation "max_exception_extensions does not fit a 32-bit counter"
  let graceByKind ← match value.find "grace_by_kind_ns" with
    | some (.object members) =>
      ObligationKind.all.foldlM (readGraces (.object members)) defaults.graceByKind
    | _ => pure defaults.graceByKind
  let maxConnections ← sized value "max_connections" defaults.maxConnections
  let maxWorkerThreads ← sized value "max_worker_threads" defaults.maxWorkerThreads
  let maxPendingWork ← sized value "max_pending_work" defaults.maxPendingWork
  let policy : DrainPolicy :=
    { name := value.getString "name" "default", revision, maxTargetsPerRequest, maxDrainsInSet,
      maxConcurrentDrainsPerDomain,
      serializeSameDomainInSet :=
        value.readBool "serialize_same_domain_in_set" defaults.serializeSameDomainInSet,
      maxObligations, maxEvidenceRecords, maxDecisionsRetained, maxBlockersPerDrain,
      maxEvacuationAttempts, maxExceptionExtensions,
      admissionFenceSettle :=
        value.readI64 "admission_fence_settle_ns" defaults.admissionFenceSettle,
      evidenceFreshness := value.readI64 "evidence_freshness_ns" defaults.evidenceFreshness,
      evacuationRetryInterval :=
        value.readI64 "evacuation_retry_interval_ns" defaults.evacuationRetryInterval,
      defaultGrace := value.readI64 "default_grace_ns" defaults.defaultGrace,
      evidenceClockSkew := value.readI64 "evidence_clock_skew_ns" defaults.evidenceClockSkew,
      graceByKind,
      capacityHeadroomNumerator :=
        value.readU64 "capacity_headroom_numerator" defaults.capacityHeadroomNumerator,
      capacityHeadroomDenominator :=
        value.readU64 "capacity_headroom_denominator" defaults.capacityHeadroomDenominator,
      requiredPathDiversity :=
        value.readU64 "required_path_diversity" defaults.requiredPathDiversity,
      requireReleaseEvidence :=
        value.readBool "require_release_evidence" defaults.requireReleaseEvidence,
      requireQuiescenceEvidence :=
        value.readBool "require_quiescence_evidence" defaults.requireQuiescenceEvidence,
      evidenceRequiresLiveIncarnation :=
        value.readBool "evidence_requires_live_incarnation"
          defaults.evidenceRequiresLiveIncarnation,
      reobserveRemovalEvidence :=
        value.readBool "reobserve_removal_evidence" defaults.reobserveRemovalEvidence,
      maxSnapshotBytes := value.readU64 "max_snapshot_bytes" defaults.maxSnapshotBytes,
      maxFrameBytes := value.readU64 "max_frame_bytes" defaults.maxFrameBytes,
      maxConnections, maxWorkerThreads, maxPendingWork }
  policy.validate
  return policy

/-- The last thing the reader does is the check. -/
theorem validate_of_fromJson {value : JsonValue} (h : fromJson value = .ok p) :
    p.validate = .ok () := by
  simp only [fromJson, bind_eq_ok] at h
  obtain ⟨_, -, _, -, _, -, _, -, _, -, _, -, _, -, _, -, _, -, _, -, _, -, h⟩ := h
  split at h <;>
  · simp only [bind_eq_ok, pure_eq_ok] at h
    obtain ⟨_, -, _, -, _, -, _, -, _, hvalid, rfl⟩ := h
    exact hvalid

end DrainPolicy

end DrainFabric
