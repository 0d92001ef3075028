import DrainFabric.Engine.Sound

/-!
# Conservative recovery

What an engine is after it was restored from its own snapshot: everything that was decided
is there again, nothing that was proved is trusted. Evidence has to be attested anew, tokens
are revoked, and a drain that was under way is blocked where it stood.

* `World.Counted` — the times and durations a snapshot can hold;
* `Recovered` — the restored engine against the one the snapshot was taken of;
* `recovery_exact` — every reachable state;
* `policy_survives` — the policy, which is read back when its revision is not zero.
-/

namespace DrainFabric

open Lib

variable {r : DrainRecord} {C : Engine → Event → Prop} {e : Engine}

/-! ### Times and durations -/

namespace DrainRecord

/-- The times of a record can be written. -/
structure Counted (r : DrainRecord) : Prop where
  requestedAt : IsCount r.requestedAt
  stateSince : IsCount r.stateSince
  admissionClosedAt : IsCount r.admissionClosedAt
  completedAt : IsCount r.completedAt
  restoredAt : IsCount r.restoredAt
  lastEvacuationAt : IsCount r.lastEvacuationAt
  blockers : ∀ b ∈ r.blockers, IsCount b.since ∧ IsCount b.deadline

/-- What no write gives a record: an attempt, a remainder or blockers out of order. -/
structure Plain (r : DrainRecord) : Prop where
  attempt : r.attempt = 0
  remaining : r.remainingProtectedAtCompletion = 0
  blockers : Blocker.normalize r.blockers = r.blockers

theorem plain_moved (h : r.Plain) (next : DrainState) (now : TimePoint) (detail : String) :
    (r.moved next now detail).Plain := by
  refine ⟨h.attempt, h.remaining, ?_⟩
  show Blocker.normalize (if _ then [] else r.blockers) = if _ then [] else r.blockers
  split_ifs
  · rfl
  · exact h.blockers

theorem plain_setBlockers (h : r.Plain) (blockers : List Blocker) :
    (r.setBlockers blockers).Plain :=
  ⟨h.attempt, h.remaining, Blocker.normalize_normalize blockers⟩

theorem plain_reloaded (h : r.Plain) : r.reloaded.Plain := by
  refine ⟨?_, ?_, Blocker.normalize_normalize _⟩
  · show r.attempt % 2 ^ 32 = 0
    rw [h.attempt, Nat.zero_mod]
  · show r.remainingProtectedAtCompletion % 2 ^ 32 = 0
    rw [h.remaining, Nat.zero_mod]

/-- A plain record whose times can be written is read back as it was, but for its revision. -/
theorem reloaded_eq (h : r.Plain) (hcounted : r.Counted) :
    r.reloaded = { r with revision := 1 } := by
  have hblockers : r.blockers.map Blocker.persisted = r.blockers := by
    refine (List.map_congr_left fun b hb => ?_).trans (List.map_id _)
    obtain ⟨hsince, hdeadline⟩ := hcounted.blockers b hb
    rw [Blocker.persisted, hsince.persisted, hdeadline.persisted]
    rfl
  simp only [reloaded, persisted, hblockers, h.blockers, hcounted.requestedAt.persisted,
    hcounted.stateSince.persisted, hcounted.admissionClosedAt.persisted,
    hcounted.completedAt.persisted, hcounted.restoredAt.persisted,
    hcounted.lastEvacuationAt.persisted, h.attempt, h.remaining, Nat.zero_mod]

end DrainRecord

namespace World

/-- The times and durations of a state, and the counters of its obligations, can be
written. -/
structure Counted (w : World) : Prop where
  policy : w.policy.Counted
  obligations : ∀ o ∈ w.obligations.all,
    (IsCount o.grace ∧ IsCount o.admittedAt ∧ IsCount o.clearedAt) ∧ o.attempt < 2 ^ 32
  evidence : ∀ e ∈ w.evidence.records.toList, IsCount e.observedAt ∧ IsCount e.expiresAt
  fence : ∀ p ∈ w.fence.entries.toList, IsCount p.2.closedAt ∧ IsCount p.2.openedAt
  drains : ∀ r ∈ w.drains.toList, r.Counted
  sets : ∀ set ∈ w.sets.toList, IsCount set.requestedAt
  exceptions : ∀ p ∈ w.exceptions.toList, ∀ grant ∈ p.2,
    IsCount grant.extension ∧ IsCount grant.grantedAt

theorem Counted.grant {w : World} (h : Counted w) {id : DrainId} {grant : ExceptionGrant}
    (hgrant : grant ∈ w.grants id) : IsCount grant.extension ∧ IsCount grant.grantedAt := by
  unfold grants at hgrant
  cases hget : OrdMap.get? w.exceptions id with
  | none =>
    rw [hget] at hgrant
    cases hgrant
  | some granted =>
    rw [hget] at hgrant
    exact h.exceptions (id, granted) (OrdMap.get?_eq_some_iff.mp hget) grant hgrant

end World

namespace Engine

open World

theorem plain_fire (e : Engine) (ev : Event) (h : ∀ id r, e.drain id = some r → r.Plain) :
    ∀ id r, (e.fire ev).drain id = some r → r.Plain := by
  refine records_fire ?_ ?_ ?_ e ev h
  · intro request setId reason now id target
    exact ⟨rfl, rfl, rfl⟩
  · intro w now r r' hedit h
    cases hedit with
    | moves detail => exact DrainRecord.plain_moved h _ _ _
    | blocks blockers => exact DrainRecord.plain_setBlockers h blockers
    | completes => exact ⟨h.attempt, rfl, h.blockers⟩
    | _ => exact ⟨h.attempt, h.remaining, h.blockers⟩
  · intro now r _ h
    unfold recoveredRecord
    split_ifs
    · exact DrainRecord.plain_setBlockers
        (DrainRecord.plain_moved (DrainRecord.plain_reloaded h) _ _ _) _
    · exact DrainRecord.plain_reloaded h

theorem Reachable.plain (he : Reachable C e) : ∀ id r, e.drain id = some r → r.Plain :=
  he.invariant (fun policy id r hr => by simp at hr) (fun e ev h _ => plain_fire e ev h)

theorem Reachable.assigned (he : Reachable C e) : Assigned e.toWorld :=
  he.invariant (fun _ id grant h => by cases h) (fun e ev h _ => assigned_fire e ev h)

/-! ### What is restored -/

/-- What a restart makes of a drain that was left as `r`. -/
structure RecoveredDrain (r q : DrainRecord) : Prop where
  /-- A drain that was under way is blocked where it stood. -/
  held : isTransient r.state = true → q.state = .blocked ∧ q.blockedFrom = some r.state ∧
    ∃ blocker, q.blockers = [blocker] ∧ blocker.code = .restartRecoveryPending
  settled : isTransient r.state = false →
    q.state = r.state ∧ q.blockedFrom = r.blockedFrom ∧ q.blockers = r.blockers
  /-- The rest of the record is as it was. -/
  rest : { q with revision := r.revision, stateSince := r.stateSince, state := r.state,
                  blockedFrom := r.blockedFrom, blockers := r.blockers } = r

/-- The restored engine against the one the snapshot was taken of. -/
structure Recovered (e restored : Engine) : Prop where
  topology : restored.topology = e.topology
  policy : restored.policy = e.policy
  obligations : restored.obligations = e.obligations
  fence : restored.fence = e.fence
  sets : restored.sets = e.sets
  grants : ∀ id, restored.grants id = e.grants id
  nonceSets : restored.nonceSets = e.nonceSets
  drainHighWater : restored.drainHighWater = e.drainHighWater
  setHighWater : restored.setHighWater = e.setHighWater
  exceptionHighWater : restored.exceptionHighWater = e.exceptionHighWater
  authorityHighWater : restored.authority.highWater = e.authority.highWater
  evidenceHighWater : restored.evidence.globalHighWater = e.evidence.globalHighWater
  latestSeq : restored.evidence.latestSeq = e.evidence.latestSeq
  evidence : ∀ key seq, restored.evidence.find key seq =
    (e.evidence.find key seq).map (fun record => { record with attested := false })
  tokens : ∀ id, (restored.authority.find id).isSome = (e.authority.find id).isSome
  revoked : ∀ id token, restored.authority.find id = some token → token.revoked = true
  drains : ∀ id, (restored.drain id).isSome = (e.drain id).isSome
  drain : ∀ id r q, e.drain id = some r → restored.drain id = some q → RecoveredDrain r q

theorem recoveredDrain_of_plain (h : r.Plain) (hcounted : r.Counted) (now : TimePoint) :
    RecoveredDrain r (recoveredRecord now r.reloaded) := by
  rw [DrainRecord.reloaded_eq h hcounted]
  unfold recoveredRecord
  by_cases htransient : isTransient r.state = true
  · rw [if_pos htransient]
    exact ⟨fun _ => ⟨rfl, rfl, _, rfl, rfl⟩, fun hf => absurd (htransient.symm.trans hf) (by decide),
      rfl⟩
  · rw [if_neg htransient]
    exact ⟨fun ht => absurd ht htransient, fun _ => ⟨rfl, rfl, rfl⟩, rfl⟩

/-- Each component of a sound state with times that can be written is recovered. -/
theorem Recovery.recovered {recovered : Engine} {prev : IncarnationId} {now : TimePoint}
    (h : Recovery e prev now recovered) (he : Reachable C e) (hcounted : Counted e.toWorld) :
    Recovered e recovered := by
  have hsound := he.sound
  obtain ⟨loaded, hload, hledger⟩ := h.evidence
  obtain ⟨registry, hregistry, hauthority⟩ := h.authority
  obtain ⟨-, htopology⟩ := (Topology.loadFromJson_eq_ok hsound.topology).mp h.topology
  obtain ⟨-, hpolicy⟩ := (DrainPolicy.fromJson_eq_ok hcounted.policy).mp h.policy
  obtain ⟨-, hobligations⟩ :=
    (ObligationTable.loadFromJson_eq_ok hsound.obligations).mp h.obligations
  obtain ⟨-, rfl⟩ := (EvidenceLedger.loadFromJson_eq_ok hsound.ledger).mp hload
  obtain ⟨-, rfl⟩ := (AuthorityRegistry.loadFromJson_eq_ok hsound.tokens).mp hregistry
  obtain ⟨-, hfence⟩ := AdmissionFence.loadFromJson_eq_ok.mp h.fence
  obtain ⟨hdrainMark, hsetMark⟩ := h.marks_eq he.filed
  refine ⟨htopology, hpolicy, ?_, ?_, ?_, ?_, h.nonces_eq he.nonces, hdrainMark, hsetMark,
    h.exceptionHighWater.2, ?_, ?_, ?_, ?_, ?_, ?_, ?_, ?_⟩
  · -- obligations
    rw [hobligations, hpolicy, ← hsound.obligationBound, Table.mapVals_eq_self]
    intro o ho
    obtain ⟨⟨hgrace, hadmitted, hcleared⟩, hattempt⟩ := hcounted.obligations o ho
    rw [Obligation.persisted, hgrace.persisted, hadmitted.persisted, hcleared.persisted,
      Nat.mod_eq_of_lt hattempt]
  · -- the fence
    have hentries : recovered.fence.entries = e.fence.entries := by
      rw [hfence, Table.mapVals_eq_self]
      intro p hp
      obtain ⟨hclosed, hopened⟩ := hcounted.fence p hp
      rw [FenceEntry.persisted, hclosed.persisted, hopened.persisted]
    exact congrArg AdmissionFence.mk hentries
  · -- the sets
    rw [h.sets_eq.2, Table.mapVals_eq_self]
    intro set hset
    rw [DrainSet.persisted, (hcounted.sets set hset).persisted]
  · -- the exceptions
    intro id
    rw [h.grants he.assigned]
    refine (List.map_congr_left fun grant hgrant => ?_).trans (List.map_id _)
    obtain ⟨hextension, hgranted⟩ := hcounted.grant hgrant
    rw [ExceptionGrant.persisted, hextension.persisted, hgranted.persisted]
    rfl
  · rw [hauthority]
    rfl
  · rw [hledger]
    rfl
  · rw [hledger]
    rfl
  · -- the evidence
    intro key seq
    have hread := Table.find?_mapVals e.evidence.records Evidence.persisted
      Evidence.recordKey_persisted (toLex (key, seq))
    rw [hledger, EvidenceLedger.find_quarantineAll, EvidenceLedger.find, hread, Option.map_map,
      EvidenceLedger.find]
    cases hfind : e.evidence.records.find? (toLex (key, seq)) with
    | none => rfl
    | some record =>
      obtain ⟨hobserved, hexpires⟩ := hcounted.evidence record (Table.mem_of_find? hfind)
      refine congrArg some ?_
      rw [Function.comp_apply, Evidence.persisted, hobserved.persisted, hexpires.persisted]
  · intro id
    have hread := Table.find?_mapVals e.authority.tokens AuthorityToken.persisted
      AuthorityToken.persisted_id id
    rw [hauthority, AuthorityRegistry.find_revokeAll, Option.isSome_map, AuthorityRegistry.find,
      hread, Option.isSome_map, AuthorityRegistry.find]
  · intro id token htoken
    rw [hauthority] at htoken
    exact AuthorityRegistry.revoked_of_revokeAll htoken
  · intro id
    rw [h.drain, Option.isSome_map]
  · intro id r q hr hq
    rw [h.drain, hr] at hq
    obtain rfl := Option.some.inj hq
    exact recoveredDrain_of_plain (he.plain id r hr) (hcounted.drains r (Table.mem_of_find? hr)) now

end Engine

open Engine

/-- Conservative recovery: an engine that is restored from the snapshot of a reachable state
has that state again, without the trust in it. -/
theorem recovery_exact {C : Engine → Event → Prop} {e : Engine} (he : Reachable C e)
    (hcounted : e.Counted) (policy : DrainPolicy) (prev : IncarnationId) (now : TimePoint)
    (hok : ((Engine.init policy).restore e.snapshot prev now).2 = .ok ()) :
    Recovered e ((Engine.init policy).restore e.snapshot prev now).1 := by
  unfold restore at hok ⊢
  cases hdecode : decodeSnapshot (Engine.init policy).policy e.snapshot prev now with
  | error err =>
    rw [hdecode] at hok
    cases hok
  | ok recovered =>
    have h := (decodeSnapshot_eq_ok.mp hdecode).recovered he hcounted
    -- The decision that is recorded at the end touches nothing of the state.
    exact { h with }

namespace OnePort

/-- The drain of the port waits for its flow to be moved. -/
def underWay : Engine :=
  run perform (Engine.init {})
    ((setup 1).map .call ++ [.call (admitFlow 1), .advance 1, .advance 1, .advance 1, .advance 1])

end OnePort

theorem recovery_exact_underWay :
    Recovered OnePort.underWay ((Engine.init {}).restore OnePort.underWay.snapshot 1 5).1 ∧
      (OnePort.underWay.drain 1).map DrainRecord.state = some .evacuating ∧
      (((Engine.init {}).restore OnePort.underWay.snapshot 1 5).1.drain 1).map
        (fun r => (r.state, r.blockedFrom)) = some (.blocked, some .evacuating) := by
  have hreach : Reachable (fun _ _ => True) OnePort.underWay :=
    reachable_run (.init {}) (by decide +kernel)
  have hpolicy : OnePort.underWay.policy.Counted :=
    ⟨by decide +kernel, by decide +kernel, by decide +kernel, by decide +kernel, by decide +kernel,
      fun kind => by cases kind <;> decide +kernel⟩
  have hdrains : ∀ r ∈ OnePort.underWay.drains.toList, IsCount r.requestedAt ∧
      IsCount r.stateSince ∧ IsCount r.admissionClosedAt ∧ IsCount r.completedAt ∧
      IsCount r.restoredAt ∧ IsCount r.lastEvacuationAt ∧
      ∀ b ∈ r.blockers, IsCount b.since ∧ IsCount b.deadline := by
    decide +kernel
  have hcounted : OnePort.underWay.Counted :=
    ⟨hpolicy, by decide +kernel, by decide +kernel, by decide +kernel,
      fun r hr => by
        obtain ⟨h₁, h₂, h₃, h₄, h₅, h₆, h₇⟩ := hdrains r hr
        exact ⟨h₁, h₂, h₃, h₄, h₅, h₆, h₇⟩,
      by decide +kernel, by decide +kernel⟩
  exact ⟨recovery_exact hreach hcounted {} 1 5 (by decide +kernel), by decide +kernel,
    by decide +kernel⟩

/-! ### The policy -/

/-- The durations of the policy are values of their type. -/
structure DrainPolicy.Machine (p : DrainPolicy) : Prop where
  admissionFenceSettle : p.admissionFenceSettle ≤ i64Max
  evidenceFreshness : p.evidenceFreshness ≤ i64Max
  evacuationRetryInterval : p.evacuationRetryInterval ≤ i64Max
  evidenceClockSkew : p.evidenceClockSkew ≤ i64Max
  defaultGrace : p.defaultGrace ≤ i64Max
  graceByKind : ∀ kind, p.graceByKind kind ≤ i64Max

theorem DrainPolicy.Valid.counted {p : DrainPolicy} (h : p.Valid) (hmachine : p.Machine) :
    p.Counted where
  admissionFenceSettle := ⟨h.admissionFenceSettle, hmachine.admissionFenceSettle⟩
  evidenceFreshness := ⟨h.evidenceFreshness.le, hmachine.evidenceFreshness⟩
  evacuationRetryInterval := ⟨h.evacuationRetryInterval, hmachine.evacuationRetryInterval⟩
  evidenceClockSkew := ⟨h.evidenceClockSkew, hmachine.evidenceClockSkew⟩
  defaultGrace := ⟨h.defaultGrace.le, hmachine.defaultGrace⟩
  graceByKind := fun kind => ⟨h.graceByKind kind, hmachine.graceByKind kind⟩

theorem Engine.setPolicy_ok {p : DrainPolicy} {now : TimePoint} :
    (e.setPolicy p now).2 = .ok () ↔ p.validate = .ok () := by
  rw [setPolicy]
  cases p.validate with
  | error err => exact Iff.rfl
  | ok _ => exact ⟨fun _ => rfl, fun _ => rfl⟩

/-- A policy that can be installed is read back as it was written exactly when its revision is
not zero, and what is read can be installed. -/
theorem policy_survives (p q : DrainPolicy) (e : Engine) (now : TimePoint) (value : JsonValue) :
    (p.Machine → (e.setPolicy p now).2 = .ok () →
      (DrainPolicy.fromJson p.toJson = .ok p ↔ p.revision ≠ 0)) ∧
    (DrainPolicy.fromJson value = .ok q → q.validate = .ok ()) := by
  refine ⟨fun hmachine hinstalled => ?_, DrainPolicy.validate_of_fromJson⟩
  have hvalid := DrainPolicy.validate_eq_ok.mp (Engine.setPolicy_ok.mp hinstalled)
  rw [DrainPolicy.fromJson_eq_ok (hvalid.counted hmachine)]
  exact ⟨fun h => h.1.1, fun hrevision => ⟨⟨hrevision, hvalid⟩, rfl⟩⟩

theorem policy_survives_defaults :
    DrainPolicy.fromJson DrainPolicy.defaults.toJson = .ok .defaults ∧
      DrainPolicy.defaults.validate = .ok () := by
  obtain ⟨hwritten, hinstalls⟩ := policy_survives .defaults .defaults (Engine.init {}) 1
    DrainPolicy.defaults.toJson
  have hread := (hwritten ⟨by decide, by decide, by decide, by decide, by decide,
    fun _ => (by decide : (0 : Int) ≤ i64Max)⟩ rfl).mpr (by decide)
  exact ⟨hread, hinstalls hread⟩

/-- A policy under revision zero can be installed and is not read back. -/
theorem policy_survives_fails :
    ((Engine.init {}).setPolicy { DrainPolicy.defaults with revision := 0 } 1).2 = .ok () ∧
      (DrainPolicy.fromJson { DrainPolicy.defaults with revision := 0 }.toJson).isOk = false := by
  decide +kernel

end DrainFabric
