import DrainFabric.Engine.Calls

/-!
# Snapshots and recovery

`DrainEngine::snapshot` and `DrainEngine::restore`. A snapshot that is refused
leaves the engine as it was. An accepted one replaces the whole state, and then
recovery is conservative: evidence is quarantined, tokens are revoked, and a drain
that was in the middle of something is blocked from where it stood.
-/

namespace DrainFabric

open Lib

namespace Engine

open World

/-- `snapshot`. -/
def snapshot (e : Engine) : JsonValue :=
  .object [("format_version", .uint snapshotFormatVersion),
    ("incarnation", .uint e.authority.incarnation), ("epoch", .uint e.authority.epoch),
    ("drain_high_water", .uint e.drainHighWater), ("set_high_water", .uint e.setHighWater),
    ("exception_high_water", .uint e.exceptionHighWater), ("policy", e.policy.toJson),
    ("topology", e.topology.toJson), ("obligations", e.obligations.toJson),
    ("evidence", e.evidence.toJson), ("authority", e.authority.toJson),
    ("fence", e.fence.toJson), ("drains", .array (e.drains.toList.map DrainRecord.toJson)),
    ("sets", .array (e.sets.toList.map DrainSet.toJson)),
    ("exceptions", .array (e.exceptions.toList.flatMap (fun (_, grants) =>
      grants.map ExceptionGrant.toJson))),
    ("nonces", .array (e.nonceSets.toList.map (fun (nonce, set) =>
      .object [("nonce", .uint nonce), ("set", .uint set)]))),
    ("decisions", .array (e.decisions.map Decision.toJson))]

/-- An array member of the snapshot: absent is empty, anything but an array within
its bound is refused. -/
def snapshotArray (snapshot : JsonValue) (key : String) (bound : Nat)
    (notArray tooLong : String) : Result (List JsonValue) :=
  match snapshot.find key with
  | none => .ok []
  | some value => do
    rejectIf (¬ value.isArray) .persistenceCorrupt notArray
    rejectIf (value.size > bound) .boundsExceeded tooLong
    return value.asArray

/-- A component of the snapshot that an absent member leaves at its default. -/
def snapshotPart {α : Type} (snapshot : JsonValue) (key : String) (default : α)
    (load : JsonValue → Result α) : Result α :=
  match snapshot.find key with
  | none => .ok default
  | some value => load value

/-- The error under which a refused entry of the snapshot is reported. -/
def entryError (noun : String) (err : Error) : Error :=
  ⟨.persistenceCorrupt, noun ++ " rejected: " ++ err.message⟩

/-- One drain record of the snapshot. -/
def loadDrain (drains : Table DrainRecord.id) (entry : JsonValue) :
    Result (Table DrainRecord.id) := do
  let record ← (DrainRecord.fromJson entry).mapError (entryError "drain record")
  orFail (drains.emplace record) .persistenceCorrupt "duplicate drain id in snapshot"

/-- One drain set of the snapshot. -/
def loadSet (sets : Table DrainSet.id) (entry : JsonValue) : Result (Table DrainSet.id) := do
  let set ← (DrainSet.fromJson entry).mapError (entryError "drain set")
  orFail (sets.emplace set) .persistenceCorrupt "duplicate drain set id in snapshot"

/-- One exception grant of the snapshot. -/
def loadException (exceptions : OrdMap DrainId (List ExceptionGrant)) (entry : JsonValue) :
    Result (OrdMap DrainId (List ExceptionGrant)) := do
  let grant ← (ExceptionGrant.fromJson entry).mapError (entryError "exception grant")
  return OrdMap.set exceptions grant.drain
    ((OrdMap.get? exceptions grant.drain).getD [] ++ [grant])

/-- One nonce of the snapshot; a zero nonce is skipped. -/
def loadNonce (nonceSets : OrdMap RequestNonce DrainSetId) (entry : JsonValue) :
    OrdMap RequestNonce DrainSetId :=
  if entry.getUint "nonce" = 0 then nonceSets
  else OrdMap.set nonceSets (entry.getUint "nonce") (entry.getUint "set")

/-- The states a restart does not trust. -/
def isTransient (state : DrainState) : Bool :=
  state matches .validating | .admissionClosed | .evacuating | .quiescing | .verifying
    | .restoring

/-- The conservative recovery of one record. -/
def recoverDrain (now : TimePoint) (record : DrainRecord) : Result DrainRecord :=
  if ¬ isTransient record.state then .ok record
  else do
    let blocked ← (record.transition .blocked now
        "recovered after restart; revalidation required").mapError (fun err =>
      ⟨.persistenceCorrupt,
        "recovered drain could not be conservatively blocked: " ++ err.message⟩)
    return blocked.setBlockers [{
      code := .restartRecoveryPending, subject := "drain:" ++ toString record.id,
      detail := "recovered from state " ++ record.state.toString ++
        "; evidence must be re-attested before the drain can continue",
      since := now }]

/-- One iteration of the loop that recovers the drains, in place. -/
def recoverStep (now : TimePoint) (drains : Table DrainRecord.id) (record : DrainRecord) :
    Result (Table DrainRecord.id) := do
  let recovered ← recoverDrain now record
  return drains.put recovered

/-- Everything `restore` reads and checks before it touches the engine. -/
def decodeSnapshot (policy : DrainPolicy) (snapshot : JsonValue)
    (previousIncarnation : IncarnationId) (now : TimePoint) : Result Engine := do
  rejectIf (¬ snapshot.isObject) .persistenceCorrupt "snapshot payload is not a json object"
  rejectIf (snapshot.getUint "format_version" ≠ snapshotFormatVersion)
    .persistenceCorrupt "unsupported snapshot format version"
  let writer := snapshot.getUint "incarnation"
  rejectIf (previousIncarnation ≠ 0 ∧ writer ≠ previousIncarnation) .persistenceCorrupt
    ("snapshot records incarnation " ++ toString writer ++ " but the loader reported " ++
      toString previousIncarnation)
  let policy ← snapshotPart snapshot "policy" policy (fun value =>
    (DrainPolicy.fromJson value).mapError (entryError "snapshot policy"))
  let topology ← snapshotPart snapshot "topology" {} Topology.loadFromJson
  let emptyObligations : ObligationTable := { maxObligations := policy.maxObligations }
  let obligations ← snapshotPart snapshot "obligations" emptyObligations
    emptyObligations.loadFromJson
  let emptyLedger : EvidenceLedger := { maxRecords := policy.maxEvidenceRecords }
  let evidence ← snapshotPart snapshot "evidence" emptyLedger emptyLedger.loadFromJson
  let authority ← snapshotPart snapshot "authority" {} AuthorityRegistry.loadFromJson
  let fence ← snapshotPart snapshot "fence" {} AdmissionFence.loadFromJson
  let drainItems ← snapshotArray snapshot "drains" maxDrains
    "snapshot drains payload is not an array" "snapshot drain count exceeds bound"
  let drains ← drainItems.foldlM loadDrain (Table.empty DrainRecord.id)
  let setItems ← snapshotArray snapshot "sets" maxDrainSets
    "snapshot sets payload is not an array" "snapshot drain set count exceeds bound"
  let sets ← setItems.foldlM loadSet (Table.empty DrainSet.id)
  let exceptionItems ← snapshotArray snapshot "exceptions"
    (maxDrains * hardMaxExceptionExtensions)
    "snapshot exceptions payload is not an array" "snapshot exception count exceeds bound"
  let exceptions ← exceptionItems.foldlM loadException (Table.empty Prod.fst)
  let nonceItems ← snapshotArray snapshot "nonces" maxDrainSets
    "snapshot nonce payload is not an array" "snapshot nonce count exceeds bound"
  let nonceSets := nonceItems.foldl loadNonce (Table.empty Prod.fst)
  let decisionItems ← snapshotArray snapshot "decisions" hardMaxDecisionsRetained
    "snapshot decision payload is not an array" "snapshot decision count exceeds bound"
  let decisions ← decisionItems.mapM (fun entry =>
    (Decision.fromJson entry).mapError (entryError "decision record"))
  let exceptionHighWater ← orFail (narrowChecked32 (snapshot.getUint "exception_high_water"))
    .boundsExceeded "snapshot exception high-water mark does not fit a 32-bit counter"
  let recovered ← drains.toList.foldlM (recoverStep now) drains
  return { policy, topology, obligations, evidence := evidence.quarantineAll,
           authority := authority.revokeAll now
             "recovered from snapshot; authority never survives a restart",
           fence, drains := recovered, sets, exceptions, nonceSets, decisions,
           drainHighWater := (drains.keys).foldl max (snapshot.getUint "drain_high_water"),
           setHighWater := (sets.keys).foldl max (snapshot.getUint "set_high_water"),
           exceptionHighWater }

/-- `restore`. -/
def restore (e : Engine) (snapshot : JsonValue) (previousIncarnation : IncarnationId)
    (now : TimePoint) : Engine × Status :=
  match decodeSnapshot e.policy snapshot previousIncarnation now with
  | .error err => (e, .error err)
  | .ok recovered =>
    (recovered.recordDecision { recovered.plainDecision "restore-snapshot" .applied now with
      inputs := ["previous-incarnation=" ++ toString (snapshot.getUint "incarnation"),
        "drains=" ++ toString recovered.drains.size,
        "obligations=" ++ toString recovered.obligations.size]
      rejected := ["trust-recovered-evidence-without-re-attestation",
        "resume-transient-drain-states-directly"] }, .ok ())

end Engine

end DrainFabric
