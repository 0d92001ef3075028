import DrainFabric.Lifecycle
import DrainFabric.Policy

/-!
# Drain sets, decisions and exception grants

`drain_set.hpp`, `decision.hpp` and the persisted part of `explain.hpp`: the
request-level grouping of drains, the audit trail entry the engine writes for
everything it does, and the policy exceptions an operator grants.
-/

namespace DrainFabric

open Lib

variable {targets normalized : List DrainTarget} {maxTargets : Nat}

/-- `kMaxTargetsPerRequest`. -/
def maxTargetsPerRequest : Nat := 256

/-! ### Drain sets -/

structure DrainSet where
  id : DrainSetId := 0
  reason : String := ""
  requestedAt : TimePoint := 0
  revision : Revision := 1
  authority : AuthorityId := 0
  nonce : RequestNonce := 0
  targets : List DrainTarget := []
  members : List DrainId := []
  deriving DecidableEq, Repr

namespace DrainSet

/-- `to_json`. -/
def toJson (s : DrainSet) : JsonValue :=
  .object [("id", .uint s.id), ("reason", .string s.reason),
    ("requested_at_ns", .ofCount s.requestedAt), ("revision", .uint s.revision),
    ("authority", .uint s.authority), ("nonce", .uint s.nonce),
    ("targets", .array (s.targets.map DrainTarget.toJson)),
    ("members", .array (s.members.map JsonValue.uint))]

/-- `from_json`. -/
def fromJson (value : JsonValue) : Result DrainSet := do
  rejectIf (¬ value.isObject) .persistenceCorrupt "drain set is not an object"
  let id := value.readU64 "id"
  rejectIf (id = 0) .persistenceCorrupt "drain set has a reserved zero id"
  let items ← orFail (value.findArray "targets") .persistenceCorrupt "drain set lacks targets"
  rejectIf (items.length = 0) .persistenceCorrupt "drain set lacks targets"
  rejectIf (items.length > maxTargetsPerRequest)
    .boundsExceeded "drain set target count exceeds bound"
  let targets ← items.mapM DrainTarget.fromJson
  let members := (value.findArray "members").getD []
  rejectIf (members.length > maxTargetsPerRequest)
    .boundsExceeded "drain set member count exceeds bound"
  return { id, reason := value.getString "reason",
           requestedAt := value.readI64 "requested_at_ns", revision := value.readU64 "revision" 1,
           authority := value.readU64 "authority", nonce := value.readU64 "nonce", targets,
           members := members.map (fun entry => entry.asUint 0) }

end DrainSet

/-- `normalize_targets`: canonical order, without repetitions. -/
def normalizeTargets (targets : List DrainTarget) (maxTargets : Nat) :
    Result (List DrainTarget) := do
  rejectIf (targets = []) .invalidArgument "a drain request must name at least one target"
  rejectIf (targets.length > maxTargets)
    .boundsExceeded "a drain request exceeds the policy target limit"
  rejectIf (targets.any (fun target => target.id.isEmpty))
    .malformedIdentity "drain target resource id must not be empty"
  return sortUnique targetOrderLess targets

/-- A normalised request names what the request names, nothing twice. -/
theorem normalizeTargets_ok (h : normalizeTargets targets maxTargets = .ok normalized) :
    normalized.Nodup ∧ ∀ target, target ∈ normalized ↔ target ∈ targets := by
  simp only [normalizeTargets, bind_eq_ok, pure_eq_ok] at h
  obtain ⟨_, -, _, -, _, -, rfl⟩ := h
  exact ⟨sortUnique_nodup targets, fun target => mem_sortUnique⟩

theorem normalizeTargets_ne_nil (h : normalizeTargets targets maxTargets = .ok normalized) :
    normalized ≠ [] := by
  have hsame := (normalizeTargets_ok h).2
  simp only [normalizeTargets, bind_eq_ok, pure_eq_ok, rejectIf_eq_ok] at h
  obtain ⟨_, hne, -⟩ := h
  obtain ⟨target, htarget⟩ := List.exists_mem_of_ne_nil targets hne
  exact List.ne_nil_of_mem ((hsame target).mpr htarget)

/-- Neither the order nor the repetitions of the targets matter. -/
theorem normalizeTargets_congr {targets' : List DrainTarget}
    (h : normalizeTargets targets maxTargets = .ok normalized)
    (hsame : ∀ target, target ∈ targets' ↔ target ∈ targets)
    (hlimit : targets'.length ≤ maxTargets) :
    normalizeTargets targets' maxTargets = .ok normalized := by
  simp only [normalizeTargets, bind_eq_ok, pure_eq_ok, rejectIf_eq_ok] at h ⊢
  obtain ⟨_, hne, _, -, _, hids, rfl⟩ := h
  refine ⟨(), ?_, (), Nat.not_lt.mpr hlimit, (), ?_, sortUnique_congr hsame⟩
  · obtain ⟨target, htarget⟩ := List.exists_mem_of_ne_nil targets hne
    exact List.ne_nil_of_mem ((hsame target).mpr htarget)
  · intro hany
    obtain ⟨target, htarget, hempty⟩ := List.any_eq_true.mp hany
    exact hids (List.any_eq_true.mpr ⟨target, (hsame target).mp htarget, hempty⟩)

theorem length_normalizeTargets (h : normalizeTargets targets maxTargets = .ok normalized) :
    normalized.length = targets.dedup.length := by
  simp only [normalizeTargets, bind_eq_ok, pure_eq_ok] at h
  obtain ⟨_, -, _, -, _, -, rfl⟩ := h
  exact length_sortUnique targets

/-! ### Decisions -/

inductive DecisionOutcome
  | applied | blocked | rejected | noOp
  deriving DecidableEq, Repr

def DecisionOutcome.toString : DecisionOutcome → String
  | applied => "applied"
  | blocked => "blocked"
  | rejected => "rejected"
  | noOp => "no-op"

/-- `decision_outcome_from_string`. -/
def DecisionOutcome.fromString (text : String) : Option DecisionOutcome :=
  if text = "applied" then some applied
  else if text = "blocked" then some blocked
  else if text = "rejected" then some rejected
  else if text = "no-op" then some noOp
  else none

structure Decision where
  action : String := ""
  outcome : DecisionOutcome := .noOp
  drain : DrainId := 0
  set : DrainSetId := 0
  generation : Generation := 0
  epoch : Epoch := 0
  incarnation : IncarnationId := 0
  authority : AuthorityId := 0
  policyRevision : Revision := 0
  policyFingerprint : String := ""
  at_ : TimePoint := 0
  inputs : List String := []
  evidence : List String := []
  rejected : List String := []
  blockers : List Blocker := []
  deriving DecidableEq, Repr

namespace Decision

/-- `to_json`. -/
def toJson (d : Decision) : JsonValue :=
  .object [("action", .string d.action), ("outcome", .string d.outcome.toString),
    ("drain", .uint d.drain), ("set", .uint d.set), ("generation", .uint d.generation),
    ("epoch", .uint d.epoch), ("incarnation", .uint d.incarnation),
    ("authority", .uint d.authority), ("policy_revision", .uint d.policyRevision),
    ("policy_fingerprint", .string d.policyFingerprint), ("at_ns", .ofCount d.at_),
    ("inputs", .array (d.inputs.map JsonValue.string)),
    ("evidence", .array (d.evidence.map JsonValue.string)),
    ("rejected", .array (d.rejected.map JsonValue.string)),
    ("blockers", .array (d.blockers.map Blocker.toJson))]

/-- `read_string_array`. -/
def readStringArray (value : JsonValue) (key : String) : Result (List String) :=
  match value.find key with
  | none => .ok []
  | some found => do
    rejectIf (¬ found.isArray)
      .persistenceCorrupt "expected a string array in the decision record"
    rejectIf (found.size > 4096) .boundsExceeded "decision string array exceeds bound"
    found.asArray.mapM (fun entry =>
      orFail (match entry with | .string text => some text | _ => none)
        .persistenceCorrupt "decision string array entry is not a string")

/-- `from_json`. -/
def fromJson (value : JsonValue) : Result Decision := do
  rejectIf (¬ value.isObject) .persistenceCorrupt "decision record is not an object"
  let action := value.getString "action"
  rejectIf (action.isEmpty) .persistenceCorrupt "decision record lacks an action"
  let outcome ← orFail (DecisionOutcome.fromString (value.getString "outcome"))
    .persistenceCorrupt "decision record has an unknown outcome"
  let inputs ← readStringArray value "inputs"
  let evidence ← readStringArray value "evidence"
  let rejected ← readStringArray value "rejected"
  let items := (value.findArray "blockers").getD []
  rejectIf (items.length > 4096) .boundsExceeded "decision blocker array exceeds bound"
  let blockers ← items.mapM Blocker.fromJson
  return { action, outcome, drain := value.readU64 "drain", set := value.readU64 "set",
           generation := value.readU64 "generation", epoch := value.readU64 "epoch",
           incarnation := value.readU64 "incarnation", authority := value.readU64 "authority",
           policyRevision := value.readU64 "policy_revision",
           policyFingerprint := value.getString "policy_fingerprint",
           at_ := value.readI64 "at_ns", inputs, evidence, rejected,
           blockers := blockers.insertionSort (fun a b => ¬ Less Blocker.less b a) }

end Decision

/-! ### Exception grants -/

structure ExceptionGrant where
  drain : DrainId := 0
  obligation : ObligationId := 0
  extension : Duration := 0
  authority : AuthorityId := 0
  grantedAt : TimePoint := 0
  sequence : Nat := 0
  deriving DecidableEq, Repr

namespace ExceptionGrant

/-- `to_json`. -/
def toJson (g : ExceptionGrant) : JsonValue :=
  .object [("drain", .uint g.drain), ("obligation", .uint g.obligation),
    ("extension_ns", .ofCount g.extension), ("authority", .uint g.authority),
    ("granted_at_ns", .ofCount g.grantedAt), ("sequence", .uint g.sequence)]

/-- `from_json`. -/
def fromJson (value : JsonValue) : Result ExceptionGrant := do
  rejectIf (¬ value.isObject) .persistenceCorrupt "exception grant is not an object"
  let sequence ← orFail (narrowChecked32 (value.getUint "sequence"))
    .boundsExceeded "exception grant sequence does not fit a 32-bit counter"
  let extension := value.getInt "extension_ns"
  rejectIf (extension ≤ 0)
    .persistenceCorrupt "exception grant extension must be positive"
  return { drain := value.getUint "drain", obligation := value.getUint "obligation", extension,
           authority := value.getUint "authority", grantedAt := value.getInt "granted_at_ns",
           sequence }

end ExceptionGrant

end DrainFabric
