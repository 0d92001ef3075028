import DrainFabric.Engine.Step

/-!
# The public operations

Every mutating public operation of `DrainEngine` besides `advance` and `restore`.
An operation returns the engine it leaves behind together with its result.
-/

namespace DrainFabric

open Lib

namespace Engine

open World

/-! ### Configuration, authority and topology -/

/-- `set_policy`. -/
def setPolicy (e : Engine) (policy : DrainPolicy) (now : TimePoint) : Engine × Status :=
  match policy.validate with
  | .error err => (e, .error err)
  | .ok _ =>
    let e := { e with
      policy
      obligations := { e.obligations with maxObligations := policy.maxObligations }
      evidence := { e.evidence with maxRecords := policy.maxEvidenceRecords } }
    (e.recordDecision { e.plainDecision "set-policy" .applied now with
      inputs := ["policy=" ++ policy.name, "fingerprint=" ++ policy.fingerprint] }, .ok ())

/-- `install_incarnation`. -/
def installIncarnation (e : Engine) (incarnation : IncarnationId) (now : TimePoint) :
    Engine × Status :=
  match e.authority.installIncarnation incarnation with
  | .error err => (e, .error err)
  | .ok authority =>
    let e := { e with authority }
    (e.recordDecision { e.plainDecision "install-incarnation" .applied now with
      inputs := ["incarnation=" ++ toString incarnation] }, .ok ())

/-- `install_authority_line`: everything recovered becomes untrusted. -/
def installAuthorityLine (e : Engine) (incarnation : IncarnationId) (epoch : Epoch)
    (now : TimePoint) (reason : String) : Engine × Status :=
  match e.authority.installLine incarnation epoch now reason with
  | .error err => (e, .error err)
  | .ok authority =>
    let e := { e with authority, evidence := e.evidence.quarantineAll }
    (e.recordDecision { e.plainDecision "install-authority-line" .applied now with
      inputs := ["incarnation=" ++ toString incarnation,
        "epoch=" ++ toString e.authority.epoch, "reason=" ++ truncate reason] }, .ok ())

/-- `begin_new_epoch`. -/
def beginNewEpoch (e : Engine) (incarnation : IncarnationId) (now : TimePoint)
    (reason : String) : Engine × Status :=
  match incrementChecked e.authority.epoch with
  | none => (e, fail .boundsExceeded "authority epoch space exhausted")
  | some epoch => e.installAuthorityLine incarnation epoch now reason

/-- `issue_authority`. -/
def issueAuthority (e : Engine) (scope : DomainId) (validity : Duration) (now : TimePoint) :
    Engine × Result AuthorityToken :=
  match e.authority.issue scope now validity with
  | .error err => (e, .error err)
  | .ok (authority, token) =>
    let e := { e with authority }
    (e.recordDecision { e.plainDecision "issue-authority" .applied now with
      inputs := ["authority=" ++ toString token.id,
        "scope=" ++ (if scope.isEmpty then "*" else scope)] }, .ok token)

/-- `revoke_authority`. -/
def revokeAuthority (e : Engine) (id : AuthorityId) (reason : String) (now : TimePoint) :
    Engine × Status :=
  match e.authority.revoke id now reason with
  | .error err => (e, .error err)
  | .ok authority =>
    let e := { e with authority }
    (e.recordDecision { e.plainDecision "revoke-authority" .applied now with
      inputs := ["authority=" ++ toString id, "reason=" ++ truncate reason] }, .ok ())

/-- The operations that add to the topology, which differ in what they add and in
the action they record. -/
def extendTopology (e : Engine) (added : Result Topology) (action : String) (now : TimePoint) :
    Engine × Status :=
  match added with
  | .error err => (e, .error err)
  | .ok topology =>
    let e := { e with topology }
    (e.recordDecision (e.plainDecision action .applied now), .ok ())

/-- `add_resource`. -/
def addResource (e : Engine) (node : ResourceNode) (now : TimePoint) : Engine × Status :=
  e.extendTopology (e.topology.addResource node) "add-resource" now

/-- `add_edge`. -/
def addEdge (e : Engine) (a b : ResourceId) (now : TimePoint) : Engine × Status :=
  e.extendTopology (e.topology.addEdge a b) "add-edge" now

/-- `add_path`. -/
def addPath (e : Engine) (path : FabricPath) (now : TimePoint) : Engine × Status :=
  e.extendTopology (e.topology.addPath path) "add-path" now

/-- `add_diversity_group`. -/
def addDiversityGroup (e : Engine) (group : DiversityGroup) (now : TimePoint) :
    Engine × Status :=
  e.extendTopology (e.topology.addDiversityGroup group) "add-diversity-group" now

/-- `add_capacity_pool`. -/
def addCapacityPool (e : Engine) (pool : CapacityPool) (now : TimePoint) : Engine × Status :=
  e.extendTopology (e.topology.addCapacityPool pool) "add-capacity-pool" now

/-- `add_protected_route`. -/
def addProtectedRoute (e : Engine) (route : ProtectedRoute) (now : TimePoint) :
    Engine × Status :=
  e.extendTopology (e.topology.addProtectedRoute route) "add-protected-route" now

/-- `report_resource_status`. -/
def reportResourceStatus (e : Engine) (id : ResourceId) (status : ResourceStatus)
    (now : TimePoint) : Engine × Status :=
  match e.topology.setStatus id status with
  | .error err => (e, .error err)
  | .ok topology =>
    let e := { e with topology }
    (e.recordDecision { e.plainDecision "report-resource-status" .applied now with
      inputs := ["resource=" ++ id, "status=" ++ status.toString] }, .ok ())

/-! ### Obligations and evidence -/

/-- The first dependency the fence refuses, with its reason. -/
def refusedDependency (w : World) (presented : Generation) :
    List DrainTarget → Option (DrainTarget × Error)
  | [] => none
  | target :: rest =>
    match w.fence.checkAdmission target presented with
    | .error err => some (target, err)
    | .ok _ => refusedDependency w presented rest

/-- `admit_obligation`. -/
def admitObligation (e : Engine) (draft : Obligation) (presented : Generation)
    (authority : AuthorityId) (now : TimePoint) : Engine × Result Obligation :=
  match e.requireAuthority authority now with
  | .error err => (e, .error err)
  | .ok _ =>
    if draft.dependencies.val.isEmpty then
      (e, fail .invalidArgument "an obligation must depend on at least one target")
    else if draft.dependencies.val.length > maxDependenciesPerObligation then
      (e, fail .boundsExceeded "obligation dependency count exceeds the supported bound")
    else
      match refusedDependency e.toWorld presented draft.dependencies.val with
      | some (target, err) =>
        (e.recordDecision
          { makeDecision e.toWorld "admit-obligation" .rejected 0 0 presented now with
            inputs := ["holder=" ++ draft.holder, "target=" ++ target.toString,
              "presented-generation=" ++ toString presented]
            rejected := [err.toString] }, .error err)
      | none =>
        match e.obligations.insert
            { draft with admittedAt := now, admissionGeneration := presented } with
        | (obligations, .error err) => ({ e with obligations }, .error err)
        | (obligations, .ok stored) =>
          let e := { e with obligations }
          (e.recordDecision
            { makeDecision e.toWorld "admit-obligation" .applied 0 0 presented now with
              inputs := ["obligation=" ++ toString stored.id, "holder=" ++ stored.holder,
                "kind=" ++ stored.kind.toString,
                "protection=" ++ stored.protection.toString,
                "generation=" ++ toString presented] }, .ok stored)

/-- The fence of a report that names a drain: the generation it carries must be the
one the drain closed admission under, or the one it was restored under. -/
def reportFence (w : World) (report : ObligationReport) : Status :=
  if report.drain = 0 then .ok ()
  else
    match w.drain report.drain with
    | none => fail .notFound ("no such drain: " ++ toString report.drain)
    | some record =>
      if report.generation ≠ record.generation ∧
          ¬ (record.restoreGeneration ≠ 0 ∧ report.generation = record.restoreGeneration) then
        fail .staleGeneration ("obligation report for drain " ++ toString report.drain ++
          " carries generation " ++ toString report.generation ++
          " but the drain is at generation " ++ toString record.generation)
      else .ok ()

/-- `report_obligation`. -/
def reportObligation (e : Engine) (report : ObligationReport) (now : TimePoint) :
    Engine × Status :=
  match e.obligations.find report.obligation with
  | none => (e, fail .notFound ("no such obligation: " ++ toString report.obligation))
  | some obligation =>
    match reportFence e.toWorld report with
    | .error err => (e, .error err)
    | .ok _ =>
      match obligation.applyState report.expectedRevision report.next report.evidence now with
      | .error err => (e, .error err)
      | .ok applied =>
        let applied := { applied with
          attempt := if report.attempt ≠ 0 then report.attempt else applied.attempt
          note := if report.note.isEmpty then applied.note else truncate report.note }
        let e := { e with obligations := e.obligations.store applied }
        (e.recordDecision { makeDecision e.toWorld "report-obligation" .applied
            report.drain 0 report.generation now with
          inputs := ["obligation=" ++ toString report.obligation,
            "state=" ++ report.next.toString,
            "expected-revision=" ++ toString report.expectedRevision,
            "resulting-revision=" ++ toString applied.revision] }, .ok ())

/-- `record_evidence`. -/
def recordEvidence (e : Engine) (draft : Evidence) (now : TimePoint) :
    Engine × Result Evidence :=
  let (evidence, recorded) := e.evidence.record draft (e.evidenceFence now)
    e.policy.evidenceRequiresLiveIncarnation
  let e := { e with evidence }
  match recorded with
  | .error err =>
    (e.recordDecision { makeDecision e.toWorld "record-evidence" .rejected draft.key.drain 0 0 now
        with
      inputs := ["evidence=" ++ draft.key.label, "sequence=" ++ toString draft.seq]
      rejected := [err.toString] }, .error err)
  | .ok stored =>
    (e.recordDecision { makeDecision e.toWorld "record-evidence" .applied draft.key.drain 0
        stored.generation now with
      inputs := ["evidence=" ++ draft.key.label, "sequence=" ++ toString stored.seq,
        "observed-at=" ++ describeTime stored.observedAt]
      evidence := ["fresh-until=" ++ describeTime
        (saturatingAdd stored.observedAt e.policy.evidenceFreshness)] }, .ok stored)

/-- `attest_evidence`. -/
def attestEvidence (e : Engine) (key : EvidenceKey) (seq : EvidenceSeq) (now : TimePoint) :
    Engine × Status :=
  match e.evidence.attest key seq (e.evidenceFence now) with
  | .error err => (e, .error err)
  | .ok evidence =>
    let e := { e with evidence }
    (e.recordDecision { e.plainDecision "attest-evidence" .applied now with
      inputs := ["sequence=" ++ toString seq, "stream=" ++ key.label] }, .ok ())

/-! ### Drains -/

/-- The drain that still owns one of the targets, with the target it owns. A
target is free again once its drain was cancelled and fully restored. -/
def ownedTarget (w : World) : List DrainTarget → Option (DrainTarget × DrainRecord)
  | [] => none
  | target :: rest =>
    match w.drains.toList.find? (fun existing => existing.target = target ∧
        ¬ (existing.state = .cancelled ∧ existing.restoredAt ≠ 0)) with
    | some existing => some (target, existing)
    | none => ownedTarget w rest

/-- The record of a drain that has just been requested. -/
def newDrain (request : DrainRequest) (setId : DrainSetId) (reason : String) (now : TimePoint)
    (id : DrainId) (target : DrainTarget) : DrainRecord :=
  { DrainRecord.make id target 0 request.authority now with
    set := setId, node := request.node, reason }

/-- One iteration of the loop that creates the drains of a set. -/
def createDrain (request : DrainRequest) (setId : DrainSetId) (reason : String)
    (now : TimePoint) (e : Engine) (members : List DrainId) (target : DrainTarget) :
    Engine × Option (List DrainId) :=
  match incrementChecked e.drainHighWater with
  | none => (e, none)
  | some next =>
    let record := newDrain request setId reason now next target
    ({ e with drainHighWater := next, drains := (e.drains.emplace record).getD e.drains },
      some (members ++ [next]))

/-- The loop that creates the drains of a set; it stops early when the id space is
exhausted and leaves the drains it has created behind. -/
def createDrains (request : DrainRequest) (setId : DrainSetId) (reason : String)
    (now : TimePoint) : Engine → List DrainId → List DrainTarget → Engine × Option (List DrainId)
  | e, members, [] => (e, some members)
  | e, members, target :: rest =>
    match createDrain request setId reason now e members target with
    | (e, none) => (e, none)
    | (e, some members) => createDrains request setId reason now e members rest

/-- The per-domain check of `request_drain_set`: the first failure domain, in
order, that the set would load above the policy's limit, with its count. -/
def overloadedDomain (w : World) (targets : List DrainTarget) : Option (DomainId × Nat) :=
  let domains := sortUnique (fun a b : DomainId => decide (a < b))
    (targets.map DrainTarget.domain)
  (domains.map (fun domain =>
    (domain, (targets.filter (fun target => target.domain == domain)).length))).find?
    (fun entry => entry.2 > w.policy.maxConcurrentDrainsPerDomain)

/-- The correlated admission check: applied only when every target is in the
topology. -/
def correlatedViolation (w : World) (targets : List DrainTarget) : TopologyViolation :=
  if targets.all (fun target => (w.topology.resource target.id).isSome) then
    w.topology.validateRemovalMany
      (sortUnique (fun a b : ResourceId => decide (a < b)) (targets.map DrainTarget.id))
      w.policy.capacityHeadroomNumerator w.policy.capacityHeadroomDenominator
  else {}

/-- The end of `request_drain_set`: the set and its drains are created. -/
def createDrainSet (e : Engine) (request : DrainRequest) (targets : List DrainTarget)
    (now : TimePoint) : Engine × Result DrainSetId :=
  match incrementChecked e.setHighWater with
  | none => (e, fail .boundsExceeded "drain set id space exhausted")
  | some setId =>
    let reason := truncate request.reason
    match createDrains request setId reason now { e with setHighWater := setId } [] targets with
    | (e, none) => (e, fail .boundsExceeded "drain id space exhausted")
    | (e, some members) =>
      let set : DrainSet := { id := setId, reason, requestedAt := now,
                              authority := request.authority, nonce := request.nonce,
                              targets, members }
      let e := { e with
        sets := (e.sets.emplace set).getD e.sets
        nonceSets := if request.nonce ≠ 0 ∧ (OrdMap.get? e.nonceSets request.nonce).isNone
          then OrdMap.set e.nonceSets request.nonce setId else e.nonceSets }
      let e := e.recordDecision { makeDecision e.toWorld "request-drain-set" .applied 0 setId 0
          now with
        inputs := ["set=" ++ toString setId, "members=" ++ toString members.length] ++
          targets.map (fun target => "target=" ++ target.toString)
        rejected := ["admit-without-correlated-check"] }
      let e := members.foldl (fun e member =>
        e.recordDecision { makeDecision e.toWorld "request-drain" .applied member setId 0 now with
          inputs := (match e.drain member with
            | some record => ["target=" ++ record.target.toString]
            | none => []) ++ ["reason=" ++ reason] }) e
      (e, .ok setId)

/-- `request_drain_set`. -/
def requestDrainSet (e : Engine) (request : DrainRequest) (now : TimePoint) :
    Engine × Result DrainSetId :=
  let rejected (texts : List String) : Engine :=
    e.recordDecision { e.plainDecision "request-drain-set" .rejected now with rejected := texts }
  match normalizeTargets request.targets e.policy.maxTargetsPerRequest with
  | .error err => (e, .error err)
  | .ok targets =>
  match e.requireAuthority request.authority now with
  | .error err => (rejected [truncate err.message], .error err)
  | .ok _ =>
  if targets.length > e.policy.maxDrainsInSet then
    (e, fail .boundsExceeded "drain set exceeds the policy member limit")
  else if e.sets.size ≥ maxDrainSets ∨ e.drains.size + targets.length > maxDrains then
    (e, fail .boundsExceeded "drain table is at capacity")
  else
  -- A replay returns the original set before ownership is looked at.
  match (if request.nonce = 0 then none else OrdMap.get? e.nonceSets request.nonce) with
  | some setId =>
    if (e.sets.find? setId).any (fun set => set.targets = targets) then (e, .ok setId)
    else (e, fail .duplicateIdentity
      "request nonce was already used for a different target set")
  | none =>
  match ownedTarget e.toWorld targets with
  | some (target, existing) =>
    (e, fail .duplicateIdentity ("target " ++ target.toString ++ " is already owned by drain " ++
      toString existing.id ++ " in state " ++ existing.state.toString))
  | none =>
  let violation := correlatedViolation e.toWorld targets
  if ¬ violation.ok then
    let code : ErrorCode := match violation.kind with
      | .capacityPoolExhausted | .reservationOverCapacity => .capacityViolation
      | _ => .redundancyViolation
    (rejected [violation.detail, "consider draining fewer targets in the same failure domain"],
      fail code ("correlated drain would violate " ++ violation.subject ++ ": " ++
        violation.detail))
  else
  match overloadedDomain e.toWorld targets with
  | some (domain, count) =>
    (rejected ["failure domain " ++ (if domain.isEmpty then "<none>" else domain) ++
        " would host " ++ toString count ++ " correlated drains"],
      fail .domainLimitViolation "the drain set exceeds the failure-domain concurrency limit")
  | none => e.createDrainSet request targets now

/-- `request_drain`. -/
def requestDrain (e : Engine) (request : DrainRequest) (now : TimePoint) :
    Engine × Result DrainId :=
  match e.requestDrainSet request now with
  | (e, .error err) => (e, .error err)
  | (e, .ok setId) =>
    match e.sets.find? setId with
    | some { members := [member], .. } => (e, .ok member)
    | _ => (e, fail .internal
        "single-target drain request did not produce exactly one drain")

/-- `cancel_drain`. The admission fence stays as it is. -/
def cancelDrain (e : Engine) (id : DrainId) (authority : AuthorityId) (reason : String)
    (now : TimePoint) : Engine × Status :=
  match e.requireAuthority authority now with
  | .error err => (e, .error err)
  | .ok _ =>
    match e.drain id with
    | none => (e, fail .notFound ("no such drain: " ++ toString id))
    | some record =>
      if record.state = .drained then
        (e, fail .illegalTransition
          ("a drained target must be restored, not cancelled: " ++ toString id))
      else if record.state = .cancelled then (e, .ok ())
      else
        match e.applyTransition record .cancelled now (truncate reason) .applied
            ["reason=" ++ truncate reason] [] ["complete-the-drain"] with
        | (e, some _) => (e, .ok ())
        | (e, none) => (e, fail .illegalTransition ("drain " ++ toString id ++
            " cannot be cancelled from state " ++ record.state.toString))

/-- The fence part of `restore_drain`: the generation admission is reopened under.
A drain whose closure never happened still has to hand out a newer generation,
which is what the forced closure is for. -/
def reopenFence (fence : AdmissionFence) (record : DrainRecord) (reason : String)
    (now : TimePoint) : AdmissionFence × Result Generation :=
  if fence.isClosed record.target then
    match (fence.entry record.target).filter (fun entry => entry.drain != record.id) with
    | some entry =>
      (fence, fail .illegalTransition ("admission for " ++ record.target.toString ++
        " is held by drain " ++ toString entry.drain ++ ", not by " ++ toString record.id))
    | none =>
      match fence.reopen record.target record.id now (truncate reason) with
      | .error err => (fence, .error err)
      | .ok (fence, generation) => (fence, .ok generation)
  else if fence.generation record.target ≤ record.generation then
    match fence.close record.target record.id now "restoration generation advance" with
    | (fence, .error err) => (fence, .error err)
    | (fence, .ok _) =>
      match fence.reopen record.target record.id now (truncate reason) with
      | .error err => (fence, .error err)
      | .ok (fence, generation) => (fence, .ok generation)
  else (fence, .ok (fence.generation record.target))

/-- `restore_drain`, up to the dispatch of the collected requests. -/
def restoreDrain (e : Engine) (id : DrainId) (authority : AuthorityId) (reason : String)
    (now : TimePoint) : Engine × Result PendingActions :=
  match e.requireAuthority authority now with
  | .error err => (e, .error err)
  | .ok _ =>
  match e.drain id with
  | none => (e, fail .notFound ("no such drain: " ++ toString id))
  | some record =>
  if record.state = .restoring then (e, .ok {})
  else if ¬ isSettled record.state then
    (e, fail .illegalTransition ("only a settled drain can be restored: " ++ toString id ++
      " is " ++ record.state.toString))
  else if record.state = .cancelled ∧ record.restoredAt ≠ 0 then (e, .ok {})
  else
  match reopenFence e.fence record reason now with
  | (fence, .error err) => ({ e with fence }, .error err)
  | (fence, .ok reopened) =>
  match { e with fence }.applyTransition record .restoring now (truncate reason) .applied
      ["reopened-generation=" ++ toString reopened] [] ["leave-admission-closed"] with
  | (e, none) => (e, fail .illegalTransition ("drain " ++ toString id ++
      " cannot be restored from state " ++ record.state.toString))
  | (e, some record) =>
    let record := { record with restoreGeneration := reopened }
    let e := e.storeDrain record
    let restorations := (e.outstandingFor record.target).map (fun obligation =>
      ({ drain := record.id, target := record.target, obligation := obligation.id,
         generation := record.generation, restoreGeneration := reopened, at_ := now,
         reason := truncate reason } : RestorationRequest))
    let reopen : AdmissionReopenRequest :=
      { target := record.target, generation := reopened, at_ := now, reason := truncate reason }
    (e, .ok { restorations, reopens := [reopen] })

/-- `resume_drain`. -/
def resumeDrain (e : Engine) (id : DrainId) (authority : AuthorityId) (now : TimePoint) :
    Engine × Status :=
  match e.requireAuthority authority now with
  | .error err => (e, .error err)
  | .ok _ =>
    match e.drain id with
    | none => (e, fail .notFound ("no such drain: " ++ toString id))
    | some record =>
      if record.state ≠ .blocked then
        (e, fail .illegalTransition ("drain is not blocked: " ++ toString id))
      else
        let resume := record.blockedFrom.getD .validating
        match e.evaluateState record resume now with
        | first :: rest =>
          (e.enterBlocked record (first :: rest) now "resume-rejected",
            fail .blocked ("drain remains blocked: " ++ first.render))
        | [] =>
          match e.applyTransition record resume now "operator resume" .applied
              ["operator=" ++ toString authority] [] [] with
          | (e, some _) => (e, .ok ())
          | (e, none) => (e, fail .illegalTransition "drain could not be resumed")

/-- `grant_exception`. Looking the grants up inserts an empty list for the drain. -/
def grantException (e : Engine) (id : DrainId) (obligation : ObligationId)
    (extension : Duration) (authority : AuthorityId) (now : TimePoint) : Engine × Status :=
  match e.requireAuthority authority now with
  | .error err => (e, .error err)
  | .ok _ =>
  if extension ≤ 0 then
    (e, fail .invalidArgument "an exception extension must be positive")
  else
  match e.drain id with
  | none => (e, fail .notFound ("no such drain: " ++ toString id))
  | some record =>
  if isSettled record.state then
    (e, fail .illegalTransition ("a settled drain cannot receive an exception: " ++ toString id))
  else if obligation ≠ 0 ∧ (e.obligations.find obligation).isNone then
    (e, fail .notFound ("no such obligation: " ++ toString obligation))
  else
  let grants := (OrdMap.get? e.exceptions id).getD []
  let e := { e with exceptions := OrdMap.set e.exceptions id grants }
  if grants.length ≥ e.policy.maxExceptionExtensions then
    (e, fail .policyViolation "the exception budget for this drain is exhausted")
  else
  match incrementChecked32 e.exceptionHighWater with
  | none => (e, fail .boundsExceeded "exception sequence space exhausted")
  | some sequence =>
    let grant : ExceptionGrant :=
      { drain := id, obligation, extension, authority, grantedAt := now, sequence }
    let e := { e with
      exceptionHighWater := sequence
      exceptions := OrdMap.set e.exceptions id (grants ++ [grant]) }
    let e := e.storeDrain record.resetEvacuationAttempts
    (e.recordDecision { e.drainDecision record "grant-exception" .applied now with
      inputs := ["obligation=" ++ toString obligation,
        "extension=" ++ describeDuration extension, "sequence=" ++ toString sequence]
      rejected := ["ignore-the-grace-window"] }, .ok ())

end Engine

end DrainFabric
