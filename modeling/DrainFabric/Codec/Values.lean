import DrainFabric.Admission
import DrainFabric.Authority
import DrainFabric.Decision
import DrainFabric.Evidence
import DrainFabric.Obligation

/-!
# Reading values back

For every value of a snapshot: what its decoder asks of a written value
(`Readable`), and what it makes of one that passes (`persisted`, `reloaded`). Each
pair comes with one equivalence, `fromJson_eq_ok`, that says both at once.
-/

namespace DrainFabric

open Lib

attribute [local simp] JsonValue.getString JsonValue.findString JsonValue.findArray
  JsonValue.getUint JsonValue.getInt JsonValue.getBool JsonValue.readU64 JsonValue.readI64
  JsonValue.asBool JsonValue.ofCount

/-! ### Identities -/

/-- An identity that may be left empty. -/
def IsOptionalSlug (text : String) : Prop := text = "" ∨ isValidSlug text = true

theorem parseSlug_iff {text slug : String} :
    parseSlug text = some slug ↔ isValidSlug text = true ∧ slug = text := by
  unfold parseSlug
  split_ifs with h <;> simp [h, eq_comm]

theorem optionalSlug_iff {value : JsonValue} {key text : String} {code : ErrorCode}
    {message slug : String} (hfind : value.find key = some (.string text)) :
    optionalSlug value key code message = .ok slug ↔ IsOptionalSlug text ∧ slug = text := by
  simp only [optionalSlug, JsonValue.findString, hfind, IsOptionalSlug]
  split_ifs with hempty
  · obtain rfl : text = "" := String.isEmpty_iff.mp hempty
    rw [Except.ok.injEq]
    exact ⟨fun h => ⟨Or.inl rfl, h.symm⟩, fun h => h.2.symm⟩
  · have htext : text ≠ "" := fun h => hempty (String.isEmpty_iff.mpr h)
    simp [htext, parseSlug_iff]

namespace DrainTarget

def Readable (t : DrainTarget) : Prop := isValidSlug t.id = true ∧ IsOptionalSlug t.domain

theorem fromJson_eq_ok {t t' : DrainTarget} : fromJson t.toJson = .ok t' ↔ t.Readable ∧ t' = t := by
  have hkind : t.toJson.findString "kind" = some t.kind.toString := by
    simp [toJson]
  have hid : t.toJson.findString "id" = some t.id := by simp [toJson]
  have hdomain : t.toJson.find "domain" = some (.string t.domain) := by simp [toJson]
  simp only [fromJson, bind_eq_ok, pure_eq_ok, rejectIf_eq_ok, orFail_eq_ok, hkind, hid,
    Option.some.injEq, parseSlug_iff, optionalSlug_iff hdomain, Readable]
  constructor
  · rintro ⟨_, -, _, rfl, _, rfl, kind, hk, _, ⟨hi, rfl⟩, _, ⟨hd, rfl⟩, rfl⟩
    obtain rfl : t.kind = kind := by simpa using hk
    exact ⟨⟨hi, hd⟩, rfl⟩
  · rintro ⟨⟨hi, hd⟩, rfl⟩
    exact ⟨(), by simp [toJson], _, rfl, _, rfl, t'.kind, by simp, _,
      ⟨hi, rfl⟩, _, ⟨hd, rfl⟩, rfl⟩

end DrainTarget

/-! ### Drains -/

theorem BlockerCode.fromString_toString (code : BlockerCode) :
    BlockerCode.fromString code.toString = some code := by
  cases code <;> decide

theorem BlockerCode.rank_injective {a b : BlockerCode} (h : a.rank = b.rank) : a = b := by
  have hmem : a ∈ all := by cases a <;> decide
  exact (List.idxOf_inj hmem).mp h

namespace Blocker

theorem less_iff {a b : Blocker} :
    a.less b = true ↔ toLex (a.code.rank, a.subject) < toLex (b.code.rank, b.subject) := by
  rw [Prod.Lex.toLex_lt_toLex]
  unfold less
  split_ifs with hcode
  · have hrank : a.code.rank ≠ b.code.rank := fun h => hcode (BlockerCode.rank_injective h)
    simp [hrank]
  · rw [ne_eq, not_not] at hcode
    simp [hcode]

/-- Blockers in their normal form stay as they are. -/
theorem normalize_normalize (blockers : List Blocker) :
    normalize (normalize blockers) = normalize blockers := by
  have hle : ∀ a b : Blocker, (¬ Less less b a) ↔
      toLex (a.code.rank, a.subject) ≤ toLex (b.code.rank, b.subject) := fun a b => by
    rw [Less, less_iff, not_lt]
  have : Std.Total (fun a b : Blocker => ¬ Less less b a) :=
    ⟨fun a b => by rw [hle, hle]; exact le_total _ _⟩
  have : IsTrans Blocker (fun a b => ¬ Less less b a) :=
    ⟨fun a b c => by rw [hle, hle, hle]; exact le_trans⟩
  have hsorted : (normalize blockers).Pairwise (fun a b => ¬ Less less b a) :=
    (List.pairwise_insertionSort _ blockers).sublist (List.destutter_sublist _ _)
  rw [normalize, hsorted.insertionSort_eq]
  exact List.destutter_of_isChain _ _ (List.isChain_destutter _ _)

/-- The blocker a restart recovers. -/
def persisted (b : Blocker) : Blocker :=
  { b with since := persistedCount b.since, deadline := persistedCount b.deadline }

/-- Every blocker can be read back. -/
theorem fromJson_toJson (b : Blocker) : fromJson b.toJson = .ok b.persisted := by
  have hcode : b.toJson.getString "code" = b.code.toString := by
    simp [toJson]
  simp only [fromJson, bind_eq_ok, pure_eq_ok, rejectIf_eq_ok, orFail_eq_ok, hcode]
  refine ⟨(), by simp [toJson], b.code, b.code.fromString_toString, ?_⟩
  simp [toJson, persisted, persistedCount]

theorem fromJson_eq_ok {b b' : Blocker} : fromJson b.toJson = .ok b' ↔ True ∧ b' = b.persisted := by
  rw [fromJson_toJson, Except.ok.injEq]
  simp [eq_comm]

end Blocker

namespace DrainRecord

structure Readable (r : DrainRecord) : Prop where
  target : r.target.Readable
  id : r.id ≠ 0
  node : IsOptionalSlug r.node
  evacuationRequests : r.evacuationRequests ≤ 1000000
  blockedFrom : r.state = .blocked → r.blockedFrom ≠ none
  remaining : r.state = .drained → r.remainingProtectedAtCompletion % 2 ^ 32 = 0
  digest : r.state = .drained → r.completionDigest ≠ 0

/-- The record a restart recovers, before it is conservatively blocked. -/
def reloaded (r : DrainRecord) : DrainRecord :=
  { r.persisted with blockers := Blocker.normalize (r.blockers.map Blocker.persisted) }

theorem reloaded_id (r : DrainRecord) : r.reloaded.id = r.id := rfl

theorem readBlockedFrom_eq_ok {r : DrainRecord} {from' : Option DrainState} :
    readBlockedFrom r.toJson r.state = .ok from' ↔
      (r.state = .blocked → r.blockedFrom ≠ none) ∧ from' = r.blockedFrom := by
  unfold readBlockedFrom
  cases hb : r.blockedFrom with
  | none =>
    have hfind : r.toJson.findString "blocked_from" = none := by
      simp [toJson, hb]
    simp only [hfind, bind_eq_ok, pure_eq_ok, rejectIf_eq_ok]
    constructor
    · rintro ⟨_, hstate, rfl⟩
      exact ⟨fun h => absurd h hstate, rfl⟩
    · rintro ⟨hstate, rfl⟩
      exact ⟨(), fun h => hstate h rfl, rfl⟩
  | some state =>
    have hfind : r.toJson.findString "blocked_from" = some state.toString := by
      simp [toJson, hb]
    simp only [hfind, bind_eq_ok, pure_eq_ok, orFail_eq_ok, DrainState.fromString_toString,
      Option.some.injEq]
    constructor
    · rintro ⟨_, rfl, rfl⟩
      exact ⟨fun _ => Option.some_ne_none _, rfl⟩
    · rintro ⟨-, rfl⟩
      exact ⟨state, rfl, rfl⟩

theorem fromJson_eq_ok {r r' : DrainRecord} :
    fromJson r.toJson = .ok r' ↔ r.Readable ∧ r' = r.reloaded := by
  -- The optional member sits in the middle of the object, so lookups go through both forms.
  have htarget : r.toJson.find "target" = some r.target.toJson := by
    cases hb : r.blockedFrom <;> simp [toJson, hb]
  have hstate : r.toJson.getString "state" = r.state.toString := by
    cases hb : r.blockedFrom <;> simp [toJson, hb]
  have hnode : r.toJson.find "node" = some (.string r.node) := by
    cases hb : r.blockedFrom <;> simp [toJson, hb]
  have hblockers : r.toJson.findArray "blockers" = some (r.blockers.map Blocker.toJson) := by
    cases hb : r.blockedFrom <;> simp [toJson, hb]
  obtain ⟨hid, hrequests, hremaining, hdigest⟩ : r.toJson.readU64 "id" = r.id ∧
      r.toJson.readU64 "evacuation_requests" = r.evacuationRequests ∧
      r.toJson.readU64 "remaining_protected_at_completion" = r.remainingProtectedAtCompletion ∧
      r.toJson.readU64 "completion_digest" = r.completionDigest := by
    cases hb : r.blockedFrom <;>
      simp [toJson, hb]
  have hresult :
      ({ id := r.id, set := r.toJson.readU64 "set", target := r.target,
         generation := r.toJson.readU64 "generation",
         restoreGeneration := r.toJson.readU64 "restore_generation",
         attempt := r.toJson.readU64 "attempt" % 2 ^ 32, state := r.state,
         blockedFrom := r.blockedFrom, authority := r.toJson.readU64 "authority", node := r.node,
         requestedAt := r.toJson.readI64 "requested_at_ns",
         stateSince := r.toJson.readI64 "state_since_ns",
         admissionClosedAt := r.toJson.readI64 "admission_closed_at_ns",
         completedAt := r.toJson.readI64 "completed_at_ns",
         restoredAt := r.toJson.readI64 "restored_at_ns",
         lastEvacuationAt := r.toJson.readI64 "last_evacuation_at_ns",
         evacuationRequests := r.evacuationRequests,
         remainingProtectedAtCompletion := r.remainingProtectedAtCompletion % 2 ^ 32,
         completionDigest := r.completionDigest,
         completionEvidence := r.toJson.readU64 "completion_evidence",
         reason := r.toJson.getString "reason",
         terminalDetail := r.toJson.getString "terminal_detail",
         blockers := Blocker.normalize (r.blockers.map Blocker.persisted) } : DrainRecord) =
      r.reloaded := by
    cases hb : r.blockedFrom <;>
      simp [reloaded, persisted, toJson, hb, persistedCount]
  simp only [fromJson, bind_eq_ok, pure_eq_ok, rejectIf_eq_ok, orFail_eq_ok, mapError_eq_ok,
    htarget, Option.getD_some, DrainTarget.fromJson_eq_ok, hstate, DrainState.fromString_toString,
    Option.some.injEq, hid, optionalSlug_iff hnode, hrequests, hblockers, hremaining, hdigest,
    mapM_map_eq_ok (fun a c => Blocker.fromJson_eq_ok)]
  constructor
  · rintro ⟨_, -, _, ⟨ht, rfl⟩, _, rfl, _, hzero, _, ⟨hn, rfl⟩, _, hreq, from', hfrom, _,
      ⟨-, rfl⟩, _, hrem, _, hdig, rfl⟩
    obtain ⟨hbf, rfl⟩ := readBlockedFrom_eq_ok.mp hfrom
    exact ⟨⟨ht, hzero, hn, Nat.not_lt.mp hreq, hbf, fun h => by simpa [h] using hrem,
      fun h => by simpa [h] using hdig⟩, hresult⟩
  · rintro ⟨h, rfl⟩
    exact ⟨(), by simp [toJson], _, ⟨h.target, rfl⟩, _, rfl, (), h.id, _,
      ⟨h.node, rfl⟩, (), Nat.not_lt.mpr h.evacuationRequests, _,
      readBlockedFrom_eq_ok.mpr ⟨h.blockedFrom, rfl⟩, _, ⟨fun _ _ => trivial, rfl⟩, (),
      fun hd => hd.2 (h.remaining hd.1), (), fun hd => h.digest hd.1 hd.2, hresult⟩

end DrainRecord

namespace DrainSet

structure Readable (s : DrainSet) : Prop where
  id : s.id ≠ 0
  named : s.targets ≠ []
  targetBound : s.targets.length ≤ maxTargetsPerRequest
  targets : ∀ target ∈ s.targets, target.Readable
  memberBound : s.members.length ≤ maxTargetsPerRequest

/-- The set a restart recovers. -/
def persisted (s : DrainSet) : DrainSet :=
  { s with requestedAt := persistedCount s.requestedAt }

theorem persisted_id (s : DrainSet) : s.persisted.id = s.id := rfl

theorem fromJson_eq_ok {s s' : DrainSet} :
    fromJson s.toJson = .ok s' ↔ s.Readable ∧ s' = s.persisted := by
  have hid : s.toJson.readU64 "id" = s.id := by
    simp [toJson]
  have htargets : s.toJson.findArray "targets" = some (s.targets.map DrainTarget.toJson) := by
    simp [toJson]
  have hmembers : s.toJson.findArray "members" = some (s.members.map JsonValue.uint) := by
    simp [toJson]
  have hresult :
      ({ id := s.id, reason := s.toJson.getString "reason",
         requestedAt := s.toJson.readI64 "requested_at_ns",
         revision := s.toJson.readU64 "revision" 1,
         authority := s.toJson.readU64 "authority", nonce := s.toJson.readU64 "nonce",
         targets := s.targets,
         members := (s.members.map JsonValue.uint).map (fun entry => entry.asUint 0) } :
        DrainSet) = s.persisted := by
    simp [persisted, toJson, persistedCount, Function.comp_def]
  simp only [fromJson, bind_eq_ok, pure_eq_ok, rejectIf_eq_ok, orFail_eq_ok, hid, htargets,
    hmembers, Option.some.injEq, Option.getD_some]
  constructor
  · rintro ⟨_, -, _, hzero, _, rfl, _, hnone, _, hbound, targets, hmap, _, hmembers, rfl⟩
    obtain ⟨hreadable, rfl⟩ := (mapM_map_eq_ok_self (fun _ _ => DrainTarget.fromJson_eq_ok)).mp hmap
    rw [List.length_map] at hnone hbound hmembers
    exact ⟨⟨hzero, fun h => hnone (by simp [h]), Nat.not_lt.mp hbound, hreadable,
      Nat.not_lt.mp hmembers⟩, hresult⟩
  · rintro ⟨h, rfl⟩
    have hmap := (mapM_map_eq_ok_self (fun _ _ => DrainTarget.fromJson_eq_ok)).mpr ⟨h.targets, rfl⟩
    refine ⟨(), by simp [toJson], (), h.id, _, rfl, (), ?_, (), ?_, _, hmap, (),
      ?_, hresult⟩
    · rw [List.length_map]
      exact fun hnil => h.named (List.length_eq_zero_iff.mp hnil)
    · rw [List.length_map]
      exact Nat.not_lt.mpr h.targetBound
    · rw [List.length_map]
      exact Nat.not_lt.mpr h.memberBound

end DrainSet

namespace ExceptionGrant

/-- The grant a restart recovers. -/
def persisted (g : ExceptionGrant) : ExceptionGrant :=
  { g with extension := persistedCount g.extension, grantedAt := persistedCount g.grantedAt }

def Readable (g : ExceptionGrant) : Prop :=
  g.sequence ≤ u32Max ∧ 0 < persistedCount g.extension

theorem fromJson_eq_ok {g g' : ExceptionGrant} :
    fromJson g.toJson = .ok g' ↔ g.Readable ∧ g' = g.persisted := by
  have hsequence : g.toJson.getUint "sequence" = g.sequence := by
    simp [toJson]
  have hextension : g.toJson.getInt "extension_ns" = persistedCount g.extension := by
    simp [toJson, persistedCount]
  have hresult :
      ({ drain := g.toJson.getUint "drain", obligation := g.toJson.getUint "obligation",
         extension := persistedCount g.extension, authority := g.toJson.getUint "authority",
         grantedAt := g.toJson.getInt "granted_at_ns", sequence := g.sequence } :
        ExceptionGrant) = g.persisted := by
    simp [persisted, toJson, persistedCount]
  simp only [fromJson, bind_eq_ok, pure_eq_ok, rejectIf_eq_ok, orFail_eq_ok, hsequence, hextension,
    narrowChecked32, Readable]
  constructor
  · rintro ⟨_, -, sequence, hnarrow, _, hpositive, rfl⟩
    split_ifs at hnarrow with hlarge
    obtain rfl := Option.some.inj hnarrow
    exact ⟨⟨Nat.not_lt.mp hlarge, Int.not_le.mp hpositive⟩, hresult⟩
  · rintro ⟨⟨hsmall, hpositive⟩, rfl⟩
    exact ⟨(), by simp [toJson], g.sequence, if_neg (Nat.not_lt.mpr hsmall), (),
      Int.not_le.mpr hpositive, hresult⟩

end ExceptionGrant

/-! ### Fence, authority, evidence, obligations -/

namespace FenceEntry

def Readable (e : FenceEntry) : Prop := e.generation ≠ 0 ∧ (e.closed = true → e.drain ≠ 0)

theorem fromJson_eq_ok {e e' : FenceEntry} :
    fromJson e.toJson = .ok e' ↔ e.Readable ∧ e' = e.persisted := by
  have hresult :
      ({ closed := e.toJson.getBool "closed", generation := e.toJson.readU64 "generation",
         drain := e.toJson.readU64 "drain", closedAt := e.toJson.readI64 "closed_at_ns",
         openedAt := e.toJson.readI64 "opened_at_ns", reason := e.toJson.getString "reason" } :
        FenceEntry) = e.persisted := by
    simp [toJson, persisted, persistedCount]
  simp only [fromJson, bind_eq_ok, pure_eq_ok, rejectIf_eq_ok, hresult, Readable]
  constructor
  · rintro ⟨_, -, _, hgeneration, _, hdrain, rfl⟩
    exact ⟨⟨hgeneration, fun hclosed hzero => hdrain ⟨hclosed, hzero⟩⟩, rfl⟩
  · rintro ⟨⟨hgeneration, hdrain⟩, rfl⟩
    exact ⟨(), by simp [toJson], (), hgeneration, (),
      fun h => hdrain h.1 h.2, rfl⟩

end FenceEntry

namespace AuthorityToken

def Readable (t : AuthorityToken) : Prop := t.id ≠ 0 ∧ IsOptionalSlug t.scope

/-- The token a restart recovers, which is revoked. -/
def persisted (t : AuthorityToken) : AuthorityToken :=
  { t with
    issuedAt := persistedCount t.issuedAt
    expiresAt := persistedCount t.expiresAt
    revoked := true
    revokedAt := persistedCount t.revokedAt
    revocationReason :=
      if t.revocationReason.isEmpty then
        "recovered from snapshot; authority does not survive restart"
      else t.revocationReason }

theorem persisted_id (t : AuthorityToken) : t.persisted.id = t.id := rfl

theorem fromJson_eq_ok {t t' : AuthorityToken} :
    fromJson t.toJson = .ok t' ↔ t.Readable ∧ t' = t.persisted := by
  have hid : t.toJson.readU64 "id" = t.id := by
    simp [toJson]
  have hscope : t.toJson.find "scope" = some (.string t.scope) := by simp [toJson]
  have hreason : t.toJson.getString "revocation_reason" = t.revocationReason := by
    simp [toJson]
  simp only [fromJson, bind_eq_ok, pure_eq_ok, rejectIf_eq_ok, hid, optionalSlug_iff hscope,
    hreason, Readable]
  have hresult :
      ({ id := t.id, scope := t.scope, generation := t.toJson.readU64 "generation",
         epoch := t.toJson.readU64 "epoch", incarnation := t.toJson.readU64 "incarnation",
         issuedAt := t.toJson.readI64 "issued_at_ns",
         expiresAt := t.toJson.readI64 "expires_at_ns", revoked := true,
         revokedAt := t.toJson.readI64 "revoked_at_ns",
         revocationReason :=
           if t.revocationReason.isEmpty then
             "recovered from snapshot; authority does not survive restart"
           else t.revocationReason } : AuthorityToken) = t.persisted := by
    simp [persisted, toJson, persistedCount]
  constructor
  · rintro ⟨_, -, _, hzero, _, ⟨hslug, rfl⟩, rfl⟩
    exact ⟨⟨hzero, hslug⟩, hresult⟩
  · rintro ⟨⟨hzero, hslug⟩, rfl⟩
    exact ⟨(), by simp [toJson], (), hzero, _, ⟨hslug, rfl⟩, hresult⟩

end AuthorityToken

@[simp] theorem EvidenceKind.fromString_toString (kind : EvidenceKind) :
    EvidenceKind.fromString kind.toString = some kind := by
  cases kind <;> decide

namespace Evidence

def Readable (e : Evidence) : Prop := e.seq ≠ 0 ∧ IsOptionalSlug e.key.resource

/-- The record a restart recovers, which is quarantined. -/
def persisted (e : Evidence) : Evidence :=
  { e with observedAt := persistedCount e.observedAt, expiresAt := persistedCount e.expiresAt,
           attested := false }

@[simp] theorem recordKey_persisted (e : Evidence) : e.persisted.recordKey = e.recordKey := rfl

theorem fromJson_eq_ok {e e' : Evidence} :
    fromJson e.toJson = .ok e' ↔ e.Readable ∧ e' = e.persisted := by
  have hkind : e.toJson.getString "kind" = e.key.kind.toString := by
    simp [toJson]
  have hseq : e.toJson.readU64 "seq" = e.seq := by
    simp [toJson]
  have hresource : e.toJson.find "resource" = some (.string e.key.resource) := by simp [toJson]
  simp only [fromJson, bind_eq_ok, pure_eq_ok, rejectIf_eq_ok, orFail_eq_ok, hkind, hseq,
    EvidenceKind.fromString_toString, Option.some.injEq, optionalSlug_iff hresource, Readable]
  have hresult :
      ({ seq := e.seq,
         key := { kind := e.key.kind, drain := e.toJson.readU64 "drain",
                  obligation := e.toJson.readU64 "obligation", resource := e.key.resource },
         generation := e.toJson.readU64 "generation", epoch := e.toJson.readU64 "epoch",
         producer := e.toJson.readU64 "producer", authority := e.toJson.readU64 "authority",
         observedAt := e.toJson.readI64 "observed_at_ns",
         expiresAt := e.toJson.readI64 "expires_at_ns", healthy := e.toJson.getBool "healthy",
         quantity := e.toJson.readU64 "quantity", detail := e.toJson.getString "detail",
         attested := false } : Evidence) = e.persisted := by
    simp [persisted, toJson, persistedCount]
  constructor
  · rintro ⟨_, -, _, rfl, _, hzero, _, ⟨hslug, rfl⟩, rfl⟩
    exact ⟨⟨hzero, hslug⟩, hresult⟩
  · rintro ⟨⟨hzero, hslug⟩, rfl⟩
    exact ⟨(), by simp [toJson], _, rfl, (), hzero, _, ⟨hslug, rfl⟩, hresult⟩

end Evidence

namespace Obligation

structure Readable (o : Obligation) : Prop where
  holder : isValidSlug o.holder = true
  dependent : o.dependencies.val ≠ []
  dependencyBound : o.dependencies.val.length ≤ maxDependenciesPerObligation
  dependencies : ∀ target ∈ o.dependencies.val, target.Readable
  service : IsOptionalSlug o.service
  group : IsOptionalSlug o.group
  revision : o.revision ≠ 0
  reappearances : o.reappearances ≤ maxObligationReappearances

theorem fromJson_eq_ok {o o' : Obligation} :
    fromJson o.toJson = .ok o' ↔ o.Readable ∧ o' = o.persisted := by
  have hkind : o.toJson.getString "kind" = o.kind.toString := by
    simp [toJson]
  have hholder : o.toJson.getString "holder" = o.holder := by
    simp [toJson]
  have hprotection : o.toJson.getString "protection" "protected" = o.protection.toString := by
    simp [toJson]
  have hmode : o.toJson.getString "mode" = o.mode.toString := by
    simp [toJson]
  have hstate : o.toJson.getString "state" = o.state.toString := by
    simp [toJson]
  have hservice : o.toJson.find "service" = some (.string o.service) := by simp [toJson]
  have hgroup : o.toJson.find "group" = some (.string o.group) := by simp [toJson]
  have hrevision : o.toJson.readU64 "revision" 1 = o.revision := by
    simp [toJson]
  have hreappear : o.toJson.readU64 "reappearances" = o.reappearances := by
    simp [toJson]
  have hdeps : o.toJson.findArray "dependencies" =
      some (o.dependencies.val.map DrainTarget.toJson) := by
    simp [toJson]
  have hlegal : isLegalObligationTransition .admitted o.state = true := by
    cases o.state <;> decide
  have hresult :
      ({ make o.kind o.holder o.dependencies.val with
         protection := o.protection, mode := o.mode, service := o.service, group := o.group,
         id := o.toJson.readU64 "id", capacity := o.toJson.readU64 "capacity",
         grace := o.toJson.readI64 "grace_ns", attempt := o.toJson.readU64 "attempt" % 2 ^ 32,
         admittedAt := o.toJson.readI64 "admitted_at_ns",
         admissionGeneration := o.toJson.readU64 "admission_generation", state := o.state,
         revision := o.revision, releaseEvidence := o.toJson.readU64 "release_evidence",
         clearedAt := o.toJson.readI64 "cleared_at_ns", reappearances := o.reappearances,
         note := o.toJson.getString "note" } : Obligation) = o.persisted := by
    simp [persisted, make, Dependencies.normalize_val, toJson, persistedCount]
  simp only [fromJson, bind_eq_ok, pure_eq_ok, rejectIf_eq_ok, orFail_eq_ok, hkind, hholder, hdeps,
    hprotection, hmode, hstate, Option.some.injEq, exists_eq_left', List.length_map, parseSlug_iff,
    optionalSlug_iff hservice, optionalSlug_iff hgroup, hrevision, hreappear,
    ObligationKind.fromString_toString, ProtectionClass.fromString_toString,
    EvacuationMode.fromString_toString, ObligationState.fromString_toString,
    mapM_map_eq_ok_self (fun _ _ => DrainTarget.fromJson_eq_ok)]
  constructor
  · rintro ⟨_, -, _, ⟨hh, rfl⟩, _, hb, _, hn, _, ⟨hm, rfl⟩, _, ⟨hs, rfl⟩, _, ⟨hg, rfl⟩, _, hr, _, -,
      _, hx, rfl⟩
    exact ⟨⟨hh, fun hnil => hn (by simp [hnil]), Nat.not_lt.mp hb, hm, hs, hg, hr,
      Nat.not_lt.mp hx⟩, hresult⟩
  · rintro ⟨h, rfl⟩
    exact ⟨(), by simp [toJson], _, ⟨h.holder, rfl⟩, (), Nat.not_lt.mpr h.dependencyBound, (),
      fun hnil => h.dependent (List.length_eq_zero_iff.mp hnil), _, ⟨h.dependencies, rfl⟩, _,
      ⟨h.service, rfl⟩, _, ⟨h.group, rfl⟩, (), h.revision, (), not_not.mpr hlegal, (),
      Nat.not_lt.mpr h.reappearances, hresult⟩

end Obligation

/-! ### Decisions -/

namespace Decision

structure Readable (d : Decision) : Prop where
  action : d.action ≠ ""
  inputs : d.inputs.length ≤ 4096
  evidence : d.evidence.length ≤ 4096
  rejected : d.rejected.length ≤ 4096
  blockers : d.blockers.length ≤ 4096

end Decision

end DrainFabric
