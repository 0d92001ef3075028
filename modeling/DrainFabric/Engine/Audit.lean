import DrainFabric.Engine.State

/-!
# The accounting audit

`DrainEngine::audit`: the engine counts what it holds and checks its own state, drain by
drain, obligation by obligation and fence by fence. Each check yields a line of text; the
report has the lines sorted and without repetitions. The time it is asked for is not read.

* `drainedLines`, `cancelledLines`, `unsettledLines` — the checks of one drain;
* `obligationLines`, `fenceLines` — the checks of an obligation and of a fence;
* `audit` — the report;
* `tally_total` — the classes of the report count every drain once.
-/

namespace DrainFabric

open Lib

/-- `AccountingReport`. -/
structure AccountingReport where
  drainsTotal : Nat := 0
  drainsActive : Nat := 0
  drainsBlocked : Nat := 0
  drainsDrained : Nat := 0
  drainsCancelled : Nat := 0
  drainsFailed : Nat := 0
  drainsRestoring : Nat := 0
  drainsRestored : Nat := 0
  obligationsTotal : Nat := 0
  obligationsOutstandingProtected : Nat := 0
  obligationsRetired : Nat := 0
  obligationsReappeared : Nat := 0
  fencesClosed : Nat := 0
  evidenceRecords : Nat := 0
  drainSets : Nat := 0
  authoritativeDigest : Nat := 0
  topologyDigest : Nat := 0
  obligationDigest : Nat := 0
  evidenceDigest : Nat := 0
  violations : List String := []

/-- `EvidenceLedger::digest`. -/
def EvidenceLedger.digest (l : EvidenceLedger) : Nat :=
  (l.records.toList.foldl (fun digest evidence =>
    let digest := digest.updateU64 evidence.seq
    let digest := digest.updateTagged "key" evidence.key.label
    let digest := digest.updateU64 evidence.generation
    let digest := digest.updateU64 evidence.observedAt.toNat
    let digest := digest.updateBool evidence.healthy
    let digest := digest.updateU64 evidence.quantity
    digest.updateBool evidence.attested) ({} : Digest64)).value

namespace World

variable {w : World}

/-- The line, if the condition holds. -/
def flag (condition : Prop) [Decidable condition] (line : String) : List String :=
  if condition then [line] else []

@[simp] theorem mem_flag {condition : Prop} [Decidable condition] {line text : String} :
    text ∈ flag condition line ↔ condition ∧ text = line := by
  unfold flag
  split_ifs with h <;> simp [h]

/-- The label of a drain in the report. -/
def auditLabel (record : DrainRecord) : String :=
  "drain " ++ toString record.id ++ " (" ++ record.target.toString ++ ")"

/-! ### The checks -/

def outstandingLine (w : World) (record : DrainRecord) : String :=
  auditLabel record ++ " is drained but " ++ toString (w.outstandingFor record.target).length ++
    " protected dependenc(ies) still reference the target"

def digestLine (record : DrainRecord) : String := auditLabel record ++ " has no completion digest"

def inServiceLine (record : DrainRecord) : String :=
  auditLabel record ++ " is drained but the resource is still in service"

/-- Is the resource of the drain known and in service? -/
def targetInService (w : World) (record : DrainRecord) : Bool :=
  (w.topology.resource record.target.id).any ResourceNode.isInService

/-- The checks of a drained drain. -/
def drainedLines (w : World) (record : DrainRecord) : List String :=
  flag ((w.outstandingFor record.target).isEmpty = false) (w.outstandingLine record) ++
    flag (record.remainingProtectedAtCompletion ≠ 0)
      (auditLabel record ++ " recorded a non-zero protected count at completion") ++
    flag (record.completionDigest = 0) (digestLine record) ++
    flag (w.fence.isClosed record.target = false)
      (auditLabel record ++ " is drained but does not hold a closed admission fence") ++
    flag (w.targetInService record = true) (inServiceLine record)

/-- The checks of a cancelled drain. It was restored, or it had closed admission, or
neither. -/
def cancelledLines (w : World) (record : DrainRecord) : List String :=
  let entry := w.fence.entry record.target
  let owned := entry.any (fun e => e.closed && e.drain == record.id)
  if record.restoredAt ≠ 0 then
    if entry.all (fun e => e.generation ≤ record.generation) then
      [auditLabel record ++ " was restored without advancing the admission generation"]
    else flag (owned = true)
      (auditLabel record ++ " was restored but still owns a closed admission fence")
  else if record.generation ≠ 0 then
    if entry.all (fun e => !e.closed) then
      [auditLabel record ++ " was cancelled after closing admission but the fence is open"]
    else flag (entry.any (fun e => e.generation ≠ record.generation) = true)
      (auditLabel record ++ " was cancelled but the fence generation moved on")
  else flag (owned = true)
    (auditLabel record ++ " was cancelled before closing admission yet holds a closed fence")

/-- The checks of a drain that is under way or being restored. -/
def unsettledLines (w : World) (record : DrainRecord) : List String :=
  flag (isSettled record.state = false ∧ record.state ≠ .restoring ∧
      (holdsFence record || isFenceHoldingState record.state) = true ∧
      w.fence.isClosed record.target = false)
    (auditLabel record ++ " is past admission closure but its fence is open") ++
  flag (record.state = .restoring ∧ w.fence.isClosed record.target = true)
    (auditLabel record ++ " is restoring but its admission fence is still closed")

/-- The body of the loop over the drains. -/
def drainLines (w : World) (record : DrainRecord) : List String :=
  (if record.state = .drained then w.drainedLines record else []) ++
    (if record.state = .cancelled then w.cancelledLines record else []) ++ w.unsettledLines record

/-- The body of the loop over the obligations. -/
def obligationLines (w : World) (obligation : Obligation) : List String :=
  obligation.dependencies.val.flatMap (fun dependency =>
    match w.fence.entry dependency with
    | none => []
    | some entry =>
      flag (entry.closed = true ∧ entry.generation ≤ obligation.admissionGeneration)
        (obligation.label ++ " was admitted at generation " ++
          toString obligation.admissionGeneration ++ " but admission for " ++
          dependency.toString ++ " closed at generation " ++ toString entry.generation))

/-- The body of the loop over the fence. -/
def fenceLines (w : World) (target : DrainTarget) (entry : FenceEntry) : List String :=
  if entry.closed = false then []
  else
    match w.drain entry.drain with
    | none => ["closed admission fence for " ++ target.toString ++
        " references an unknown drain " ++ toString entry.drain]
    | some record =>
      flag (record.state = .cancelled ∧ record.restoredAt ≠ 0)
        ("restored drain " ++ toString entry.drain ++
          " still holds a closed admission fence for " ++ target.toString)

/-! ### The report -/

/-- The number of drains in one of the states. -/
def tally (w : World) (states : DrainState → Bool) : Nat :=
  w.drains.toList.countP (fun record => states record.state)

/-- The default case of the classification. -/
def isActive (state : DrainState) : Bool :=
  !(state matches .drained | .cancelled | .failed | .blocked | .restoring)

/-- `audit`. -/
def audit (w : World) (_now : TimePoint) : AccountingReport :=
  let drainsActive := w.tally isActive
  let drainsBlocked := w.tally (· == .blocked)
  let drainsDrained := w.tally (· == .drained)
  let drainsCancelled := w.tally (· == .cancelled)
  let drainsFailed := w.tally (· == .failed)
  let drainsRestoring := w.tally (· == .restoring)
  let classified := drainsActive + drainsBlocked + drainsDrained + drainsCancelled +
    drainsFailed + drainsRestoring
  let lines := w.drains.toList.flatMap w.drainLines ++
    flag (classified ≠ w.drains.size) ("drain accounting does not close: classified " ++
      toString classified ++ " of " ++ toString w.drains.size) ++
    w.obligations.all.flatMap w.obligationLines ++
    w.fence.entries.toList.flatMap (fun (target, entry) => w.fenceLines target entry)
  { drainsTotal := w.drains.size, drainsActive, drainsBlocked, drainsDrained, drainsCancelled,
    drainsFailed, drainsRestoring,
    drainsRestored := w.drains.toList.countP (fun record =>
      record.state == .cancelled && record.restoredAt != 0),
    obligationsTotal := w.obligations.size,
    obligationsOutstandingProtected := w.obligations.all.countP Obligation.blocksCompletion,
    obligationsRetired := w.obligations.all.countP (fun o => o.state == .retired),
    obligationsReappeared := (w.obligations.all.map Obligation.reappearances).sum,
    fencesClosed := w.fence.entries.toList.countP (fun p => p.2.closed),
    evidenceRecords := w.evidence.records.size,
    drainSets := w.sets.size,
    authoritativeDigest := w.authoritativeDigest,
    topologyDigest := (w.topology.resources.toList.foldl (fun digest node =>
      (digest.updateTagged "resource" node.id).updateU64 (statusRank node.status))
      ({} : Digest64)).value,
    obligationDigest := obligationDigest w.obligations,
    evidenceDigest := w.evidence.digest,
    violations := sortUnique (fun a b : String => decide (a < b)) lines }

/-- The classes of the report count every drain once. -/
theorem tally_total (w : World) :
    w.tally isActive + w.tally (· == .blocked) + w.tally (· == .drained) +
      w.tally (· == .cancelled) + w.tally (· == .failed) + w.tally (· == .restoring) =
      w.drains.size := by
  unfold tally Table.size
  induction w.drains.toList with
  | nil => rfl
  | cons record rest ih =>
    simp only [List.countP_cons, List.length_cons, ← ih]
    cases record.state <;> simp [isActive] <;> omega

/-- A line of the report comes from a drain, an obligation or a fence. -/
theorem mem_audit {now : TimePoint} {line : String} :
    line ∈ (w.audit now).violations ↔
      (∃ record ∈ w.drains.toList, line ∈ w.drainLines record) ∨
        (∃ obligation ∈ w.obligations.all, line ∈ w.obligationLines obligation) ∨
        ∃ target entry, (target, entry) ∈ w.fence.entries.toList ∧
          line ∈ w.fenceLines target entry := by
  simp only [audit, tally_total, mem_sortUnique, List.mem_append, List.mem_flatMap, mem_flag,
    Prod.exists, ne_eq, not_true, false_and, or_false, or_assoc]

end World

end DrainFabric
