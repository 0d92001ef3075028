import DrainFabric.Identity
import DrainFabric.Lib.Table

/-!
# Obligations

`obligation.hpp`: a dependency that one or more targets carry, and the bounded
store of all of them.

* `Obligation.applyState` — the only writer of an obligation's state, fenced by
  its revision;
* `Obligation.blocksCompletion` — what keeps a drain from completing;
* `ObligationTable` — the store, with the high-water mark of its ids;
* `persisted` — what of an obligation survives a restart.

The dependency list of an obligation is sorted and free of repetitions by
construction, which is what makes the bisection of `dependsOn` a membership test.
-/

namespace DrainFabric

open Lib

variable {evidence : EvidenceSeq} {at_ : TimePoint}

def maxDependenciesPerObligation : Nat := 64

def maxObligationReappearances : Nat := 1000000

/-! ### Enumerations -/

inductive ObligationKind
  | activeFlow | reservation | workloadNetworkContract | pathDiversityCommitment
  | capacityGuarantee | supplied
  deriving DecidableEq, Repr

def ObligationKind.toString : ObligationKind → String
  | activeFlow => "active-flow"
  | reservation => "reservation"
  | workloadNetworkContract => "workload-network-contract"
  | pathDiversityCommitment => "path-diversity-commitment"
  | capacityGuarantee => "capacity-guarantee"
  | supplied => "supplied"

def ObligationKind.fromString (text : String) : Option ObligationKind :=
  if text = "active-flow" then some activeFlow
  else if text = "reservation" then some reservation
  else if text = "workload-network-contract" then some workloadNetworkContract
  else if text = "path-diversity-commitment" then some pathDiversityCommitment
  else if text = "capacity-guarantee" then some capacityGuarantee
  else if text = "supplied" then some supplied
  else none

@[simp] theorem ObligationKind.fromString_toString (kind : ObligationKind) :
    fromString kind.toString = some kind := by
  cases kind <;> decide

inductive EvacuationMode
  | none | reroute | migrate | release | rerouteAndRelease
  deriving DecidableEq, Repr

def EvacuationMode.toString : EvacuationMode → String
  | none => "none"
  | reroute => "reroute"
  | migrate => "migrate"
  | release => "release"
  | rerouteAndRelease => "reroute-and-release"

def EvacuationMode.fromString (text : String) : Option EvacuationMode :=
  if text = "none" then some .none
  else if text = "reroute" then some .reroute
  else if text = "migrate" then some .migrate
  else if text = "release" then some .release
  else if text = "reroute-and-release" then some .rerouteAndRelease
  else Option.none

@[simp] theorem EvacuationMode.fromString_toString (mode : EvacuationMode) :
    fromString mode.toString = some mode := by
  cases mode <;> decide

/-- `ProtectionClass`; the enumerator `Protected` is `protectedClass` because the
bare word is reserved. -/
inductive ProtectionClass
  | advisory | protectedClass
  deriving DecidableEq, Repr

def ProtectionClass.toString : ProtectionClass → String
  | advisory => "advisory"
  | protectedClass => "protected"

def ProtectionClass.fromString (text : String) : Option ProtectionClass :=
  if text = "advisory" then some advisory
  else if text = "protected" then some protectedClass
  else none

@[simp] theorem ProtectionClass.fromString_toString (protection : ProtectionClass) :
    fromString protection.toString = some protection := by
  cases protection <;> decide

inductive ObligationState
  | admitted | evacuating | quiescing | released | retired | failed
  deriving DecidableEq, Repr

variable {next : ObligationState}

def ObligationState.toString : ObligationState → String
  | admitted => "admitted"
  | evacuating => "evacuating"
  | quiescing => "quiescing"
  | released => "released"
  | retired => "retired"
  | failed => "failed"

def ObligationState.fromString (text : String) : Option ObligationState :=
  if text = "admitted" then some admitted
  else if text = "evacuating" then some evacuating
  else if text = "quiescing" then some quiescing
  else if text = "released" then some released
  else if text = "retired" then some retired
  else if text = "failed" then some failed
  else none

@[simp] theorem ObligationState.fromString_toString (state : ObligationState) :
    fromString state.toString = some state := by
  cases state <;> decide

/-- `default_evacuation_mode`. -/
def defaultEvacuationMode : ObligationKind → EvacuationMode
  | .activeFlow => .rerouteAndRelease
  | .reservation => .release
  | .workloadNetworkContract => .migrate
  | .pathDiversityCommitment => .reroute
  | .capacityGuarantee => .release
  | .supplied => .rerouteAndRelease

/-- `is_legal_obligation_transition`. -/
def isLegalObligationTransition (source next : ObligationState) : Bool :=
  source == next ||
  match source with
  | .admitted => (next matches .evacuating | .quiescing | .released | .retired | .failed)
  | .evacuating => (next matches .quiescing | .released | .retired | .failed)
  | .quiescing => (next matches .released | .retired | .failed | .admitted)
  | .released => (next matches .retired | .failed | .admitted | .quiescing)
  | .retired => (next matches .admitted)
  | .failed => (next matches .admitted | .evacuating | .quiescing)

/-! ### Dependency lists -/

/-- A dependency list in canonical order, without repetitions. -/
def Dependencies := { l : List DrainTarget // l.Pairwise (Less targetOrderLess) }
  deriving DecidableEq

namespace Dependencies

/-- `normalize_dependencies`: sort, then drop equal neighbours. -/
def normalize (targets : List DrainTarget) : Dependencies :=
  ⟨sortUnique targetOrderLess targets, sortUnique_sorted targets⟩

instance : Repr Dependencies := ⟨fun d n => reprPrec d.val n⟩

instance : Membership DrainTarget Dependencies := ⟨fun d t => t ∈ d.val⟩

instance (t : DrainTarget) (d : Dependencies) : Decidable (t ∈ d) :=
  inferInstanceAs (Decidable (t ∈ d.val))

theorem normalize_val (d : Dependencies) : normalize d.val = d :=
  Subtype.ext (sortUnique_of_sorted d.property)

end Dependencies

/-! ### One obligation -/

structure Obligation where
  id : ObligationId := 0
  kind : ObligationKind := .activeFlow
  protection : ProtectionClass := .protectedClass
  holder : HolderId := ""
  service : ServiceId := ""
  group : GroupId := ""
  mode : EvacuationMode := .rerouteAndRelease
  dependencies : Dependencies := Dependencies.normalize []
  capacity : CapacityUnits := 0
  grace : Duration := 0
  attempt : Attempt := 0
  admittedAt : TimePoint := 0
  admissionGeneration : Generation := 0
  state : ObligationState := .admitted
  revision : Revision := 1
  releaseEvidence : EvidenceSeq := 0
  clearedAt : TimePoint := 0
  reappearances : Nat := 0
  note : String := ""
  deriving DecidableEq, Repr

variable {o o' : Obligation}

namespace Obligation

/-- The constructor `Obligation(kind, holder, dependencies)`. -/
def make (kind : ObligationKind) (holder : HolderId) (dependencies : List DrainTarget) :
    Obligation :=
  { kind, holder, mode := defaultEvacuationMode kind,
    dependencies := Dependencies.normalize dependencies }

/-- `depends_on`. -/
def dependsOn (o : Obligation) (target : DrainTarget) : Bool :=
  binarySearch targetOrderLess target o.dependencies.val

/-- `depends_on_resource`. -/
def dependsOnResource (o : Obligation) (id : ResourceId) : Bool :=
  o.dependencies.val.any (fun target => target.id == id)

/-- `blocks_completion`. -/
def blocksCompletion (o : Obligation) : Bool :=
  o.protection == .protectedClass && o.state != .retired

/-- `label`. -/
def label (o : Obligation) : String :=
  "obligation:" ++ toString o.id ++ "/" ++ o.kind.toString ++ " holder=" ++ o.holder

/-- `apply_state`. The expected revision fences duplicate and reordered callbacks.
A repeat of the present state mutates nothing unless it carries a new evidence
record for a state that keeps one. -/
def applyState (o : Obligation) (expectedRevision : Revision) (next : ObligationState)
    (evidence : EvidenceSeq) (at_ : TimePoint) : Result Obligation :=
  if expectedRevision ≠ o.revision then
    fail .staleRevision ("obligation revision mismatch on " ++ o.label ++ ": expected " ++
      toString expectedRevision ++ " have " ++ toString o.revision)
  else if next = o.state then
    if evidence = 0 ∨ evidence = o.releaseEvidence then .ok o
    else if o.state matches .quiescing | .released | .retired then
      if o.revision = u64Max then
        fail .boundsExceeded (o.label ++ " revision space exhausted")
      else
        .ok { o with releaseEvidence := evidence, clearedAt := at_, revision := o.revision + 1 }
    else .ok o
  else if ¬ isLegalObligationTransition o.state next then
    fail .illegalTransition (o.label ++ " cannot move from " ++ o.state.toString ++ " to " ++
      next.toString)
  else if o.revision = u64Max then
    fail .boundsExceeded (o.label ++ " revision space exhausted")
  else
    let moved := { o with state := next, revision := o.revision + 1 }
    match next with
    | .retired | .released => .ok { moved with releaseEvidence := evidence, clearedAt := at_ }
    -- The guard above excludes a repeat, so this is a reappearance.
    | .admitted =>
      .ok { moved with releaseEvidence := 0, clearedAt := 0,
                       reappearances := (o.reappearances + 1) % 2 ^ 32 }
    | _ => .ok moved

/-- `to_json`. -/
def toJson (o : Obligation) : JsonValue :=
  .object [("id", .uint o.id), ("kind", .string o.kind.toString),
    ("protection", .string o.protection.toString), ("holder", .string o.holder),
    ("service", .string o.service), ("group", .string o.group),
    ("mode", .string o.mode.toString),
    ("dependencies", .array (o.dependencies.val.map DrainTarget.toJson)),
    ("capacity", .uint o.capacity), ("grace_ns", .ofCount o.grace),
    ("attempt", .uint o.attempt), ("admitted_at_ns", .ofCount o.admittedAt),
    ("admission_generation", .uint o.admissionGeneration), ("state", .string o.state.toString),
    ("revision", .uint o.revision), ("release_evidence", .uint o.releaseEvidence),
    ("cleared_at_ns", .ofCount o.clearedAt), ("reappearances", .uint o.reappearances),
    ("note", .string o.note)]

/-- `from_json`. -/
def fromJson (value : JsonValue) : Result Obligation := do
  rejectIf (¬ value.isObject) .protocolError "obligation must be a json object"
  let kind ← orFail (ObligationKind.fromString (value.getString "kind"))
    .protocolError "unknown obligation kind"
  let holder ← orFail (parseSlug (value.getString "holder"))
    .malformedIdentity "malformed obligation holder"
  let deps ← orFail (value.findArray "dependencies")
    .protocolError "obligation dependencies must be an array"
  rejectIf (deps.length > maxDependenciesPerObligation)
    .boundsExceeded "obligation dependency count exceeds bound"
  rejectIf (deps.length = 0) .protocolError "obligation must depend on at least one target"
  let dependencies ← deps.mapM DrainTarget.fromJson
  let protection ← orFail (ProtectionClass.fromString (value.getString "protection" "protected"))
    .protocolError "unknown obligation protection class"
  let mode ← orFail (EvacuationMode.fromString (value.getString "mode"))
    .protocolError "unknown obligation evacuation mode"
  let service ← optionalSlug value "service"
    .malformedIdentity "malformed obligation service id"
  let group ← optionalSlug value "group" .malformedIdentity "malformed obligation group id"
  let state ← orFail (ObligationState.fromString (value.getString "state"))
    .protocolError "unknown obligation state"
  let revision := value.readU64 "revision" 1
  rejectIf (revision = 0) .protocolError "obligation revision must be non-zero"
  rejectIf (¬ isLegalObligationTransition .admitted state)
    .persistenceCorrupt "obligation state is unreachable from admitted"
  let reappearances := value.readU64 "reappearances"
  rejectIf (reappearances > maxObligationReappearances)
    .boundsExceeded "obligation reappearance counter exceeds bound"
  return { make kind holder dependencies with
    protection, mode, service, group,
    id := value.readU64 "id", capacity := value.readU64 "capacity",
    grace := value.readI64 "grace_ns", attempt := value.readU64 "attempt" % 2 ^ 32,
    admittedAt := value.readI64 "admitted_at_ns",
    admissionGeneration := value.readU64 "admission_generation",
    state, revision, releaseEvidence := value.readU64 "release_evidence",
    clearedAt := value.readI64 "cleared_at_ns", reappearances, note := value.getString "note" }

/-! ### Lemmas -/

theorem dependsOn_iff {target : DrainTarget} :
    o.dependsOn target = true ↔ target ∈ o.dependencies :=
  binarySearch_iff_mem o.dependencies.property

theorem dependsOnResource_iff {id : ResourceId} :
    o.dependsOnResource id = true ↔ ∃ target ∈ o.dependencies, target.id = id := by
  simp [dependsOnResource, List.any_eq_true, Membership.mem]

theorem blocksCompletion_iff :
    o.blocksCompletion = true ↔ o.protection = .protectedClass ∧ o.state ≠ .retired := by
  simp [blocksCompletion]

/-- The states in which an obligation has a proof of its release. -/
def KeepsProof (state : ObligationState) : Prop :=
  state = .quiescing ∨ state = .released ∨ state = .retired

instance (state : ObligationState) : Decidable (KeepsProof state) :=
  inferInstanceAs (Decidable (state = .quiescing ∨ state = .released ∨ state = .retired))

/-- What an accepted `applyState` can do: nothing, renew the stored evidence, or move to
a legal next state. -/
inductive Applied (o : Obligation) (next : ObligationState) (evidence : EvidenceSeq)
    (at_ : TimePoint) : Obligation → Prop
  | replayed : next = o.state →
      (evidence = 0 ∨ evidence = o.releaseEvidence ∨ ¬ KeepsProof o.state) →
      Applied o next evidence at_ o
  | reobserved : next = o.state → evidence ≠ 0 → evidence ≠ o.releaseEvidence →
      KeepsProof o.state → o.revision ≠ u64Max →
      Applied o next evidence at_
        { o with releaseEvidence := evidence, clearedAt := at_, revision := o.revision + 1 }
  | moved {releaseEvidence : EvidenceSeq} {clearedAt : TimePoint} {reappearances : Nat} :
      next ≠ o.state → isLegalObligationTransition o.state next = true → o.revision ≠ u64Max →
      (clearedAt = o.clearedAt ∨ clearedAt = at_ ∨ clearedAt = 0) →
      (next = .retired → releaseEvidence = evidence ∧ clearedAt = at_) →
      Applied o next evidence at_
        { o with state := next, revision := o.revision + 1, releaseEvidence, clearedAt,
                 reappearances }

theorem applyState_applied {expected : Revision}
    (h : o.applyState expected next evidence at_ = .ok o') :
    expected = o.revision ∧ o.Applied next evidence at_ o' := by
  unfold applyState at h
  by_cases hrev : expected = o.revision
  · rw [if_neg (by simpa using hrev)] at h
    refine ⟨hrev, ?_⟩
    by_cases hsame : next = o.state
    · rw [if_pos hsame] at h
      split_ifs at h with hold hkeeps hmax
      · obtain rfl := Except.ok.inj h
        exact .replayed hsame (hold.imp_right Or.inl)
      · exact absurd h fail_ne_ok
      · obtain rfl := Except.ok.inj h
        obtain ⟨hzero, hnew⟩ := not_or.mp hold
        refine .reobserved hsame hzero hnew ?_ hmax
        cases hstate : o.state <;> simp [hstate, KeepsProof] at hkeeps ⊢
      · obtain rfl := Except.ok.inj h
        refine .replayed hsame (Or.inr (Or.inr ?_))
        intro hproof
        rcases hproof with hs | hs | hs <;> simp [hs] at hkeeps
    · rw [if_neg hsame] at h
      split_ifs at h with hlegal hmax
      · exact absurd h fail_ne_ok
      · cases next <;> obtain rfl := Except.ok.inj h <;>
          exact .moved hsame hlegal hmax (by simp) (by simp)
      · exact absurd h fail_ne_ok
  · rw [if_pos (by simpa using hrev)] at h
    exact absurd h fail_ne_ok

/-- The same without the cases. -/
theorem applyState_ok {expected : Revision} (h : o.applyState expected next evidence at_ = .ok o') :
    expected = o.revision ∧
      (o' = o ∧ next = o.state ∨
        o.revision ≠ u64Max ∧ o'.revision = o.revision + 1 ∧ o'.state = next ∧
          isLegalObligationTransition o.state next = true ∧
          (next = .retired → o'.releaseEvidence = evidence ∧ o'.clearedAt = at_)) ∧
      o' = { o with state := o'.state, revision := o'.revision,
                    releaseEvidence := o'.releaseEvidence, clearedAt := o'.clearedAt,
                    reappearances := o'.reappearances } := by
  obtain ⟨hrev, happlied⟩ := applyState_applied h
  refine ⟨hrev, ?_⟩
  cases happlied with
  | replayed hsame _ => exact ⟨Or.inl ⟨rfl, hsame⟩, rfl⟩
  | reobserved hsame _ _ _ hmax =>
    have hlegal : isLegalObligationTransition o.state next = true := by
      simp [isLegalObligationTransition, hsame]
    exact ⟨Or.inr ⟨hmax, rfl, hsame.symm, hlegal, fun _ => ⟨rfl, rfl⟩⟩, rfl⟩
  | moved _ hlegal hmax _ hretired => exact ⟨Or.inr ⟨hmax, rfl, rfl, hlegal, hretired⟩, rfl⟩

/-- A repeat of the present state with the evidence it has is a replay. -/
theorem applyState_again (h : next = o.state) :
    o.applyState o.revision next o.releaseEvidence at_ = .ok o := by
  rw [applyState, if_neg (not_not.mpr rfl), if_pos h, if_pos (Or.inr rfl)]

/-- A repeat with another record replaces the stored evidence. -/
theorem applyState_reobserved (hsame : next = o.state) (hzero : evidence ≠ 0)
    (hnew : evidence ≠ o.releaseEvidence) (hkeeps : KeepsProof o.state)
    (hmax : o.revision ≠ u64Max) (at_ : TimePoint) :
    o.applyState o.revision next evidence at_ =
      .ok { o with releaseEvidence := evidence, clearedAt := at_, revision := o.revision + 1 } := by
  rw [applyState, if_neg (not_not.mpr rfl), if_pos hsame, if_neg (not_or.mpr ⟨hzero, hnew⟩),
    if_pos, if_neg hmax]
  rcases hkeeps with hs | hs | hs <;> rw [hs]

/-- The obligation a restart recovers. -/
def persisted (o : Obligation) : Obligation :=
  { o with grace := persistedCount o.grace, attempt := o.attempt % 2 ^ 32,
           admittedAt := persistedCount o.admittedAt, clearedAt := persistedCount o.clearedAt }

@[simp] theorem persisted_id (o : Obligation) : o.persisted.id = o.id := rfl

end Obligation

/-! ### The table -/

structure ObligationTable where
  obligations : Table Obligation.id := Table.empty Obligation.id
  maxObligations : Nat := 100000
  highWater : ObligationId := 0

variable {t t' : ObligationTable}

namespace ObligationTable

/-- `find`. -/
def find (t : ObligationTable) (id : ObligationId) : Option Obligation := t.obligations.find? id

/-- `all`: every obligation in id order. -/
def all (t : ObligationTable) : List Obligation := t.obligations.toList

/-- `size`. -/
def size (t : ObligationTable) : Nat := t.obligations.size

/-- What writing through `find_mutable` does to the table. -/
def store (t : ObligationTable) (o : Obligation) : ObligationTable :=
  { t with obligations := t.obligations.put o }

/-- `insert`: files a draft under the next id. -/
def insert (t : ObligationTable) (draft : Obligation) : ObligationTable × Result Obligation :=
  if t.size ≥ t.maxObligations then
    (t, fail .boundsExceeded "obligation table is at capacity")
  else
    match incrementChecked t.highWater with
    | none => (t, fail .boundsExceeded "obligation id space exhausted")
    | some next =>
      let t := { t with highWater := next }
      let stored := { draft with id := next }
      match t.obligations.emplace stored with
      | none => (t, fail .duplicateIdentity "obligation id already present")
      | some obligations => ({ t with obligations }, .ok stored)

/-- `outstanding_protected_dependents_of`. -/
def outstandingProtectedDependentsOf (t : ObligationTable) (target : DrainTarget) :
    List Obligation :=
  t.all.filter (fun o => o.blocksCompletion && o.dependsOn target)

/-- `to_json`. -/
def toJson (t : ObligationTable) : JsonValue :=
  .object [("high_water", .uint t.highWater),
    ("obligations", .array (t.all.map Obligation.toJson))]

/-- One iteration of the loop of `load_from_json`. -/
def loadEntry (loaded : Table Obligation.id × ObligationId) (entry : JsonValue) :
    Result (Table Obligation.id × ObligationId) := do
  let obligation ← (Obligation.fromJson entry).mapError (fun err =>
    ⟨.persistenceCorrupt, "obligation entry rejected: " ++ err.message⟩)
  rejectIf (obligation.id = 0) .persistenceCorrupt "obligation entry has a reserved zero id"
  let table ← orFail (loaded.1.emplace obligation)
    .persistenceCorrupt "duplicate obligation id in snapshot"
  return (table, max loaded.2 obligation.id)

/-- `load_from_json`. -/
def loadFromJson (t : ObligationTable) (value : JsonValue) : Result ObligationTable := do
  rejectIf (¬ value.isObject) .persistenceCorrupt "obligation table payload is not an object"
  let items ← orFail (value.findArray "obligations")
    .persistenceCorrupt "obligation table payload lacks an obligations array"
  rejectIf (items.length > t.maxObligations)
    .boundsExceeded "snapshot obligation count exceeds the configured bound"
  let (loaded, highWater) ← items.foldlM loadEntry (Table.empty Obligation.id, 0)
  let declared := value.readU64 "high_water"
  rejectIf (declared < highWater)
    .persistenceCorrupt "obligation high-water mark is behind the stored ids"
  return { t with obligations := loaded, highWater := declared }

/-! ### Lemmas -/

@[simp] theorem find_store (t : ObligationTable) (o : Obligation) (id : ObligationId) :
    (t.store o).find id = if o.id = id then some o else t.find id :=
  Table.find?_put t.obligations o id

theorem id_of_find {id : ObligationId} (h : t.find id = some o) : o.id = id :=
  Table.key_of_find? h

theorem mem_all_iff : o ∈ t.all ↔ t.find o.id = some o :=
  Table.mem_iff_find?

theorem outstanding_nil_iff {target : DrainTarget} :
    t.outstandingProtectedDependentsOf target = [] ↔
      ∀ o ∈ t.all, target ∈ o.dependencies → o.blocksCompletion = false := by
  simp only [outstandingProtectedDependentsOf, List.filter_eq_nil_iff, Bool.and_eq_true,
    Obligation.dependsOn_iff, not_and', Bool.not_eq_true]

/-- An accepted insertion adds one obligation under an id that was free. -/
theorem insert_ok {draft : Obligation} (h : t.insert draft = (t', .ok o)) :
    t.find o.id = none ∧ o = { draft with id := o.id } ∧ t.highWater < u64Max ∧
      t' = { t.store o with highWater := t.highWater + 1 } := by
  unfold insert at h
  split_ifs at h with hfull
  · simp [fail] at h
  · cases hnext : incrementChecked t.highWater with
    | none => simp [hnext, fail] at h
    | some next =>
      obtain ⟨hlt, rfl⟩ := incrementChecked_eq_some hnext
      simp only [hnext] at h
      cases hput : t.obligations.emplace { draft with id := t.highWater + 1 } with
      | none => simp [hput, fail] at h
      | some obligations =>
        simp only [hput, Prod.mk.injEq, Except.ok.injEq] at h
        obtain ⟨rfl, rfl⟩ := h
        obtain ⟨hfree, rfl⟩ := Table.emplace_eq_some hput
        exact ⟨hfree, rfl, hlt, rfl⟩

/-- A refused insertion adds nothing. -/
theorem insert_error {draft : Obligation} {err : Error} (h : t.insert draft = (t', .error err)) :
    t'.obligations = t.obligations := by
  unfold insert at h
  split_ifs at h with hfull
  · exact (Prod.mk.inj h).1 ▸ rfl
  · cases hnext : incrementChecked t.highWater with
    | none => exact (Prod.mk.inj (by simpa [hnext] using h)).1 ▸ rfl
    | some next =>
      simp only [hnext] at h
      cases hput : t.obligations.emplace { draft with id := next } with
      | none =>
        simp only [hput] at h
        exact (Prod.mk.inj h).1 ▸ rfl
      | some obligations => simp [hput] at h

end ObligationTable

end DrainFabric
