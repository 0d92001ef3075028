import DrainFabric.Identity
import DrainFabric.Lib.Table

/-!
# Authority

`authority.hpp`: the live authority line (incarnation and epoch) and the tokens
issued under it. No token survives a restart.
-/

namespace DrainFabric

open Lib

variable {incarnation : IncarnationId} {at_ : TimePoint} {reason : String}

def maxAuthorityTokens : Nat := 65536

structure AuthorityToken where
  id : AuthorityId := 0
  scope : DomainId := ""
  generation : Generation := 0
  epoch : Epoch := 0
  incarnation : IncarnationId := 0
  issuedAt : TimePoint := 0
  expiresAt : TimePoint := 0
  revoked : Bool := false
  revokedAt : TimePoint := 0
  revocationReason : String := ""
  deriving DecidableEq, Repr

namespace AuthorityToken

/-- `expired_at`: a zero expiry means the token does not expire. -/
def expiredAt (t : AuthorityToken) (now : TimePoint) : Bool :=
  t.expiresAt != 0 && now > t.expiresAt

/-- `revoke`. -/
def revoke (t : AuthorityToken) (at_ : TimePoint) (reason : String) : AuthorityToken :=
  { t with revoked := true, revokedAt := at_, revocationReason := reason }

/-- `to_json`. -/
def toJson (t : AuthorityToken) : JsonValue :=
  .object [("id", .uint t.id), ("scope", .string t.scope), ("generation", .uint t.generation),
    ("epoch", .uint t.epoch), ("incarnation", .uint t.incarnation),
    ("issued_at_ns", .ofCount t.issuedAt), ("expires_at_ns", .ofCount t.expiresAt),
    ("revoked", .bool t.revoked), ("revoked_at_ns", .ofCount t.revokedAt),
    ("revocation_reason", .string t.revocationReason)]

/-- `from_json`: a recovered token is always revoked. -/
def fromJson (value : JsonValue) : Result AuthorityToken := do
  rejectIf (¬ value.isObject) .persistenceCorrupt "authority token is not an object"
  let id := value.readU64 "id"
  rejectIf (id = 0) .persistenceCorrupt "authority token has a reserved zero id"
  let scope ← optionalSlug value "scope"
    .malformedIdentity "authority token has a malformed scope"
  let reason := value.getString "revocation_reason"
  return { id, scope, generation := value.readU64 "generation", epoch := value.readU64 "epoch",
           incarnation := value.readU64 "incarnation", issuedAt := value.readI64 "issued_at_ns",
           expiresAt := value.readI64 "expires_at_ns", revoked := true,
           revokedAt := value.readI64 "revoked_at_ns",
           revocationReason :=
             if reason.isEmpty then "recovered from snapshot; authority does not survive restart"
             else reason }

/-- `from_presentation_json`: a token as a peer presents it. -/
def fromPresentationJson (value : JsonValue) : Result AuthorityToken := do
  rejectIf (¬ value.isObject) .invalidArgument
    "a presented authority must be a token object, not a bare identifier"
  let id := value.readU64 "id"
  rejectIf (id = 0) .authorityRequired "presented authority token has no identifier"
  let scope ← optionalSlug value "scope"
    .malformedIdentity "presented authority token has a malformed scope"
  return { id, scope, generation := value.readU64 "generation", epoch := value.readU64 "epoch",
           incarnation := value.readU64 "incarnation", issuedAt := value.readI64 "issued_at_ns",
           expiresAt := value.readI64 "expires_at_ns" }

end AuthorityToken

/-- `AuthorityRejection`. -/
inductive AuthorityRejection
  | none | unknown | revoked | expired | staleEpoch | staleIncarnation | staleGeneration
  deriving DecidableEq, Repr

structure AuthorityRegistry where
  tokens : Table AuthorityToken.id := Table.empty AuthorityToken.id
  scopeGenerations : OrdMap DomainId Generation := Table.empty Prod.fst
  highWater : AuthorityId := 0
  incarnation : IncarnationId := 0
  epoch : Epoch := 1

namespace AuthorityRegistry

/-- `find`. -/
def find (r : AuthorityRegistry) (id : AuthorityId) : Option AuthorityToken := r.tokens.find? id

/-- `scope_generation`. -/
def scopeGeneration (r : AuthorityRegistry) (scope : DomainId) : Generation :=
  (OrdMap.get? r.scopeGenerations scope).getD 0

/-- `revoke_all`. -/
def revokeAll (r : AuthorityRegistry) (at_ : TimePoint) (reason : String) : AuthorityRegistry :=
  { r with
    tokens := r.tokens.mapVals (fun t => if t.revoked then t else t.revoke at_ reason)
      (fun t => by by_cases h : t.revoked = true <;> simp [h, AuthorityToken.revoke]) }

/-- `install_incarnation`. -/
def installIncarnation (r : AuthorityRegistry) (incarnation : IncarnationId) :
    Result AuthorityRegistry := do
  rejectIf (incarnation = 0) .invalidArgument "incarnation id must be non-zero"
  rejectIf (incarnation ≤ r.incarnation)
    .staleIncarnation "incarnation id must advance: it is a fresh-incarnation fence, not a label"
  return { r with incarnation }

/-- `begin_new_epoch` of the registry. -/
def beginNewEpoch (r : AuthorityRegistry) (incarnation : IncarnationId) (at_ : TimePoint)
    (reason : String) : Result AuthorityRegistry := do
  rejectIf (incarnation ≤ r.incarnation)
    .staleIncarnation "incarnation id must advance across restarts"
  let epoch ← orFail (incrementChecked r.epoch)
    .boundsExceeded "authority epoch space exhausted"
  return revokeAll { r with incarnation, epoch } at_ reason

/-- `install_line`. -/
def installLine (r : AuthorityRegistry) (incarnation : IncarnationId) (epoch : Epoch)
    (at_ : TimePoint) (reason : String) : Result AuthorityRegistry := do
  rejectIf (incarnation = 0) .invalidArgument "incarnation id must be non-zero"
  rejectIf (epoch = 0) .invalidArgument "authority epoch must be non-zero"
  rejectIf (r.incarnation ≠ 0 ∧ incarnation ≤ r.incarnation)
    .staleIncarnation "the authority line must advance its incarnation"
  rejectIf (epoch < r.epoch) .staleEpoch "the authority line must not rewind its epoch"
  return revokeAll { r with incarnation, epoch } at_ reason

/-- `issue`. -/
def issue (r : AuthorityRegistry) (scope : DomainId) (at_ : TimePoint) (validity : Duration) :
    Result (AuthorityRegistry × AuthorityToken) := do
  rejectIf (r.incarnation = 0)
    .authorityRequired "no incarnation is installed; authority cannot be issued"
  rejectIf (r.tokens.size ≥ maxAuthorityTokens)
    .boundsExceeded "authority token limit reached"
  let next ← orFail (incrementChecked r.highWater)
    .boundsExceeded "authority id space exhausted"
  let token : AuthorityToken :=
    { id := next, scope, generation := r.scopeGeneration scope, epoch := r.epoch,
      incarnation := r.incarnation, issuedAt := at_,
      expiresAt := if validity = 0 then 0 else saturatingAdd at_ validity }
  return ({ r with highWater := next, tokens := (r.tokens.emplace token).getD r.tokens }, token)

/-- `advance_scope_generation`. -/
def advanceScopeGeneration (r : AuthorityRegistry) (scope : DomainId) :
    Result (AuthorityRegistry × Generation) := do
  let next ← orFail (incrementChecked (r.scopeGeneration scope))
    .boundsExceeded "scope generation space exhausted"
  return ({ r with scopeGenerations := OrdMap.set r.scopeGenerations scope next }, next)

/-- `check`. -/
def check (r : AuthorityRegistry) (token : AuthorityToken) (now : TimePoint) :
    AuthorityRejection :=
  match r.find token.id with
  | Option.none => .unknown
  | some known =>
    if known.revoked then .revoked
    else if token.incarnation ≠ r.incarnation then .staleIncarnation
    else if token.epoch ≠ r.epoch then .staleEpoch
    else if token.generation ≠ r.scopeGeneration token.scope then .staleGeneration
    else if token.expiredAt now then .expired
    else .none

/-- `validate`. -/
def validate (r : AuthorityRegistry) (token : AuthorityToken) (now : TimePoint) : Status :=
  match r.check token now with
  | .none => .ok ()
  | .unknown => fail .authorityRequired "authority token is not known to this incarnation"
  | .revoked => fail .staleAuthority "authority token was revoked"
  | .expired => fail .staleAuthority "authority token expired"
  | .staleEpoch => fail .staleEpoch "authority token belongs to a superseded epoch"
  | .staleIncarnation => fail .staleIncarnation
      "authority token was issued by a previous incarnation and cannot be reused"
  | .staleGeneration => fail .staleGeneration
      "authority token belongs to a superseded scope generation"

/-- `revoke`. -/
def revoke (r : AuthorityRegistry) (id : AuthorityId) (at_ : TimePoint) (reason : String) :
    Result AuthorityRegistry :=
  match r.find id with
  | Option.none => fail .notFound "authority token is not known"
  | some token => .ok { r with tokens := r.tokens.put (token.revoke at_ reason) }

/-- `to_json`. -/
def toJson (r : AuthorityRegistry) : JsonValue :=
  .object [("high_water", .uint r.highWater), ("incarnation", .uint r.incarnation),
    ("epoch", .uint r.epoch),
    ("scope_generations", .array (r.scopeGenerations.toList.map (fun (scope, generation) =>
      .object [("scope", .string scope), ("generation", .uint generation)]))),
    ("tokens", .array (r.tokens.toList.map AuthorityToken.toJson))]

/-- One entry of the scope generations of a snapshot. -/
def loadScope (staged : AuthorityRegistry) (entry : JsonValue) : Result AuthorityRegistry := do
  let domain ← optionalSlug entry "scope" .malformedIdentity "authority scope entry is malformed"
  return { staged with
    scopeGenerations := OrdMap.set staged.scopeGenerations domain (entry.readU64 "generation") }

/-- One token of a snapshot; a repeated id keeps the first token. -/
def loadToken (staged : AuthorityRegistry) (entry : JsonValue) : Result AuthorityRegistry := do
  let token ← (AuthorityToken.fromJson entry).mapError (fun err =>
    ⟨.persistenceCorrupt, "authority token rejected: " ++ err.message⟩)
  return { staged with highWater := max staged.highWater token.id,
                       tokens := (staged.tokens.emplace token).getD staged.tokens }

/-- `load_from_json`. -/
def loadFromJson (value : JsonValue) : Result AuthorityRegistry := do
  rejectIf (¬ value.isObject) .persistenceCorrupt "authority payload is not an object"
  let epoch := value.readU64 "epoch" 1
  rejectIf (epoch = 0) .persistenceCorrupt "authority epoch must be non-zero"
  let staged : AuthorityRegistry :=
    { highWater := value.readU64 "high_water", incarnation := value.readU64 "incarnation", epoch }
  let scopes := (value.findArray "scope_generations").getD []
  rejectIf (scopes.length > maxAuthorityTokens)
    .boundsExceeded "authority scope count exceeds bound"
  let staged ← scopes.foldlM loadScope staged
  let tokens := (value.findArray "tokens").getD []
  rejectIf (tokens.length > maxAuthorityTokens)
    .boundsExceeded "authority token count exceeds bound"
  tokens.foldlM loadToken staged

/-! ### What the operations do -/

section

variable {r r' : AuthorityRegistry}

theorem installIncarnation_eq_ok :
    r.installIncarnation incarnation = .ok r' ↔
      r.incarnation < incarnation ∧ r' = { r with incarnation } := by
  simp only [installIncarnation, bind_eq_ok, pure_eq_ok, rejectIf_eq_ok]
  constructor
  · rintro ⟨_, -, _, hlt, rfl⟩
    exact ⟨Nat.not_le.mp hlt, rfl⟩
  · rintro ⟨hlt, rfl⟩
    exact ⟨(), Nat.ne_of_gt (Nat.zero_lt_of_lt hlt), (), Nat.not_le.mpr hlt, rfl⟩

theorem installLine_eq_ok {epoch : Epoch} :
    r.installLine incarnation epoch at_ reason = .ok r' ↔
      incarnation ≠ 0 ∧ epoch ≠ 0 ∧ (r.incarnation ≠ 0 → r.incarnation < incarnation) ∧
        r.epoch ≤ epoch ∧ r' = revokeAll { r with incarnation, epoch } at_ reason := by
  simp only [installLine, bind_eq_ok, pure_eq_ok, rejectIf_eq_ok]
  constructor
  · rintro ⟨_, hincarnation, _, hepoch, _, hadvances, _, hkeeps, rfl⟩
    exact ⟨hincarnation, hepoch, fun hne => Nat.not_le.mp (fun hle => hadvances ⟨hne, hle⟩),
      Nat.not_lt.mp hkeeps, rfl⟩
  · rintro ⟨hincarnation, hepoch, hadvances, hkeeps, rfl⟩
    exact ⟨(), hincarnation, (), hepoch, (), fun h => absurd h.2 (Nat.not_le.mpr (hadvances h.1)),
      (), Nat.not_lt.mpr hkeeps, rfl⟩

theorem beginNewEpoch_eq_ok :
    r.beginNewEpoch incarnation at_ reason = .ok r' ↔
      r.incarnation < incarnation ∧ r.epoch < u64Max ∧
        r' = revokeAll { r with incarnation, epoch := r.epoch + 1 } at_ reason := by
  simp only [beginNewEpoch, bind_eq_ok, pure_eq_ok, rejectIf_eq_ok, orFail_eq_ok]
  constructor
  · rintro ⟨_, hadvances, epoch, hepoch, rfl⟩
    obtain ⟨hroom, rfl⟩ := incrementChecked_eq_some hepoch
    exact ⟨Nat.not_le.mp hadvances, hroom, rfl⟩
  · rintro ⟨hadvances, hroom, rfl⟩
    exact ⟨(), Nat.not_le.mpr hadvances, _, by rw [incrementChecked_eq, if_pos hroom], rfl⟩

theorem issue_eq_ok {scope : DomainId} {validity : Duration} {token : AuthorityToken}
    (h : r.issue scope at_ validity = .ok (r', token)) :
    token = { id := r.highWater + 1, scope, generation := r.scopeGeneration scope,
              epoch := r.epoch, incarnation := r.incarnation, issuedAt := at_,
              expiresAt := if validity = 0 then 0 else saturatingAdd at_ validity } ∧
      r' = { r with highWater := r.highWater + 1,
                    tokens := (r.tokens.emplace token).getD r.tokens } := by
  simp only [issue, bind_eq_ok, pure_eq_ok, orFail_eq_ok, Prod.mk.injEq] at h
  obtain ⟨_, -, _, -, next, hnext, rfl, rfl⟩ := h
  obtain ⟨-, rfl⟩ := incrementChecked_eq_some hnext
  exact ⟨rfl, rfl⟩

theorem revoke_eq_ok {id : AuthorityId} :
    r.revoke id at_ reason = .ok r' ↔
      ∃ token, r.find id = some token ∧
        r' = { r with tokens := r.tokens.put (token.revoke at_ reason) } := by
  unfold revoke
  cases r.find id with
  | none => simp [fail]
  | some token => simp [eq_comm]

theorem find_revokeAll (at_ : TimePoint) (reason : String) (id : AuthorityId) :
    (r.revokeAll at_ reason).find id =
      (r.find id).map (fun t => if t.revoked then t else t.revoke at_ reason) := by
  unfold revokeAll find
  rw [Table.find?_mapVals]

/-- After a new line every token is revoked. -/
theorem revoked_of_revokeAll {id : AuthorityId} {t : AuthorityToken}
    (h : (r.revokeAll at_ reason).find id = some t) : t.revoked = true := by
  rw [find_revokeAll] at h
  obtain ⟨old, -, rfl⟩ := Option.map_eq_some_iff.mp h
  by_cases hrevoked : old.revoked = true
  · rw [if_pos hrevoked, hrevoked]
  · rw [if_neg hrevoked]
    rfl

/-- A presented token is accepted when one with its id is known and not revoked, and the
presented line, generation and expiry are good. -/
theorem validate_eq_ok {token : AuthorityToken} {now : TimePoint} {u : Unit} :
    r.validate token now = .ok u ↔
      ∃ known, r.find token.id = some known ∧ known.revoked = false ∧
        token.incarnation = r.incarnation ∧ token.epoch = r.epoch ∧
        token.generation = r.scopeGeneration token.scope ∧ token.expiredAt now = false := by
  simp only [validate, check]
  cases r.find token.id with
  | none => simp [fail]
  | some known =>
    simp only [Option.some.injEq, exists_eq_left']
    split_ifs with hrevoked hincarnation hepoch hgeneration hexpired <;> simp_all [fail]

end

end AuthorityRegistry

end DrainFabric
