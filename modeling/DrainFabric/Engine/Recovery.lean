import DrainFabric.Codec.Tables
import DrainFabric.Engine.CallEffect

/-!
# Recovery, component by component

A snapshot that was taken of an engine is restored exactly when each of its
components is (`decodeSnapshot_eq_ok`): `Recovery` lists the loaders, what each is
given and what becomes of its result.
-/

namespace DrainFabric

open Lib

attribute [local simp] JsonValue.getUint

namespace Engine

open World

/-- What `decode_snapshot` does with the snapshot of `e`: `recovered` is put together
from what every loader returns. -/
structure Recovery (e : Engine) (prev : IncarnationId) (now : TimePoint) (recovered : Engine) :
    Prop where
  writer : prev = 0 ∨ e.authority.incarnation = prev
  policy : DrainPolicy.fromJson e.policy.toJson = .ok recovered.policy
  topology : Topology.loadFromJson e.topology.toJson = .ok recovered.topology
  obligations : ({ maxObligations := recovered.policy.maxObligations } :
    ObligationTable).loadFromJson e.obligations.toJson = .ok recovered.obligations
  evidence : ∃ loaded, ({ maxRecords := recovered.policy.maxEvidenceRecords } :
      EvidenceLedger).loadFromJson e.evidence.toJson = .ok loaded ∧
    recovered.evidence = loaded.quarantineAll
  authority : ∃ loaded, AuthorityRegistry.loadFromJson e.authority.toJson = .ok loaded ∧
    recovered.authority = loaded.revokeAll now
      "recovered from snapshot; authority never survives a restart"
  fence : AdmissionFence.loadFromJson e.fence.toJson = .ok recovered.fence
  drains : e.drains.size ≤ maxDrains ∧ ∃ loaded,
    (e.drains.toList.map DrainRecord.toJson).foldlM loadDrain (Table.empty DrainRecord.id) =
      .ok loaded ∧
    loaded.toList.foldlM (recoverStep now) loaded = .ok recovered.drains ∧
    recovered.drainHighWater = loaded.keys.foldl max e.drainHighWater
  sets : e.sets.size ≤ maxDrainSets ∧
    (e.sets.toList.map DrainSet.toJson).foldlM loadSet (Table.empty DrainSet.id) =
      .ok recovered.sets ∧
    recovered.setHighWater = recovered.sets.keys.foldl max e.setHighWater
  exceptions : (e.exceptions.toList.flatMap (fun p => p.2.map ExceptionGrant.toJson)).length ≤
      maxDrains * hardMaxExceptionExtensions ∧
    (e.exceptions.toList.flatMap (fun p => p.2.map ExceptionGrant.toJson)).foldlM loadException
      (Table.empty Prod.fst) = .ok recovered.exceptions
  nonces : e.nonceSets.size ≤ maxDrainSets ∧
    recovered.nonceSets = (e.nonceSets.toList.map (fun p =>
      JsonValue.object [("nonce", .uint p.1), ("set", .uint p.2)])).foldl loadNonce
        (Table.empty Prod.fst)
  decisions : e.decisions.length ≤ hardMaxDecisionsRetained ∧
    (e.decisions.map Decision.toJson).mapM (fun entry =>
      (Decision.fromJson entry).mapError (entryError "decision record")) = .ok recovered.decisions
  exceptionHighWater : e.exceptionHighWater ≤ u32Max ∧
    recovered.exceptionHighWater = e.exceptionHighWater

/-- An array of the snapshot is read back when it is within its bound. -/
theorem snapshotArray_eq_ok {snapshot : JsonValue} {key : String} {items : List JsonValue}
    (hfind : snapshot.find key = some (.array items)) (bound : Nat) (notArray tooLong : String)
    {result : List JsonValue} :
    snapshotArray snapshot key bound notArray tooLong = .ok result ↔
      items.length ≤ bound ∧ result = items := by
  simp only [snapshotArray, hfind, bind_eq_ok, pure_eq_ok]
  constructor
  · rintro ⟨_, -, _, hbound, rfl⟩
    exact ⟨Nat.not_lt.mp (rejectIf_eq_ok.mp hbound), rfl⟩
  · rintro ⟨hbound, rfl⟩
    exact ⟨(), by simp [JsonValue.isArray], (), rejectIf_eq_ok.mpr (Nat.not_lt.mpr hbound), rfl⟩

theorem snapshotPart_eq {α : Type} {snapshot value : JsonValue} {key : String} (default : α)
    {load : JsonValue → Result α} (hfind : snapshot.find key = some value) :
    snapshotPart snapshot key default load = load value := by
  simp [snapshotPart, hfind]

/-- A snapshot is restored exactly when each of its components is. -/
theorem decodeSnapshot_eq_ok {e recovered : Engine} {policy : DrainPolicy} {prev : IncarnationId}
    {now : TimePoint} :
    decodeSnapshot policy e.snapshot prev now = .ok recovered ↔ Recovery e prev now recovered := by
  have hversion : e.snapshot.getUint "format_version" = snapshotFormatVersion := by
    simp [snapshot]
  have hwriter : e.snapshot.getUint "incarnation" = e.authority.incarnation := by
    simp [snapshot]
  have hdrainMark : e.snapshot.getUint "drain_high_water" = e.drainHighWater := by
    simp [snapshot]
  have hsetMark : e.snapshot.getUint "set_high_water" = e.setHighWater := by
    simp [snapshot]
  have hexceptionMark : e.snapshot.getUint "exception_high_water" = e.exceptionHighWater := by
    simp [snapshot]
  have hpolicy : e.snapshot.find "policy" = some e.policy.toJson := by simp [snapshot]
  have htopology : e.snapshot.find "topology" = some e.topology.toJson := by simp [snapshot]
  have hobligations : e.snapshot.find "obligations" = some e.obligations.toJson := by
    simp [snapshot]
  have hevidence : e.snapshot.find "evidence" = some e.evidence.toJson := by simp [snapshot]
  have hauthority : e.snapshot.find "authority" = some e.authority.toJson := by simp [snapshot]
  have hfence : e.snapshot.find "fence" = some e.fence.toJson := by simp [snapshot]
  have hdrains : e.snapshot.find "drains" =
      some (.array (e.drains.toList.map DrainRecord.toJson)) := by simp [snapshot]
  have hsets : e.snapshot.find "sets" = some (.array (e.sets.toList.map DrainSet.toJson)) := by
    simp [snapshot]
  have hexceptions : e.snapshot.find "exceptions" = some (.array (e.exceptions.toList.flatMap
      (fun p => p.2.map ExceptionGrant.toJson))) := by simp [snapshot]
  have hnonces : e.snapshot.find "nonces" = some (.array (e.nonceSets.toList.map
      (fun p => .object [("nonce", .uint p.1), ("set", .uint p.2)]))) := by simp [snapshot]
  have hdecisions : e.snapshot.find "decisions" =
      some (.array (e.decisions.map Decision.toJson)) := by simp [snapshot]
  have hobject : e.snapshot.isObject = true := rfl
  simp only [decodeSnapshot, bind_eq_ok, pure_eq_ok, rejectIf_eq_ok, orFail_eq_ok, mapError_eq_ok,
    snapshotPart_eq _ hpolicy, snapshotPart_eq _ htopology, snapshotPart_eq _ hobligations,
    snapshotPart_eq _ hevidence, snapshotPart_eq _ hauthority, snapshotPart_eq _ hfence,
    snapshotArray_eq_ok hdrains, snapshotArray_eq_ok hsets, snapshotArray_eq_ok hexceptions,
    snapshotArray_eq_ok hnonces, snapshotArray_eq_ok hdecisions, hversion, hwriter, hdrainMark,
    hsetMark, hexceptionMark, narrowChecked32_eq_some, List.length_map]
  constructor
  · rintro ⟨_, -, _, -, _, hline, policy', hp, topology, ht, obligations, ho, evidence, hev,
      authority, ha, fence, hf, _, ⟨hdb, rfl⟩, drains, hd, _, ⟨hsb, rfl⟩, sets, hs, _, ⟨hxb, rfl⟩,
      exceptions, hx, _, ⟨hnb, rfl⟩, _, ⟨hqb, rfl⟩, decisions, hq, _, ⟨hmb, rfl⟩, recovered', hr,
      rfl⟩
    refine ⟨?_, hp, ht, ho, ⟨evidence, hev, rfl⟩, ⟨authority, ha, rfl⟩, hf,
      ⟨hdb, drains, hd, hr, rfl⟩, ⟨hsb, hs, rfl⟩, ⟨hxb, hx⟩, ⟨hnb, rfl⟩, ⟨hqb, hq⟩, ⟨hmb, rfl⟩⟩
    by_contra hnot
    rw [not_or] at hnot
    exact hline hnot
  · rintro ⟨hline, hp, ht, ho, ⟨evidence, hev, hev'⟩, ⟨authority, ha, ha'⟩, hf,
      ⟨hdb, drains, hd, hr, hdm⟩, ⟨hsb, hs, hsm⟩, ⟨hxb, hx⟩, ⟨hnb, hn⟩, ⟨hqb, hq⟩, ⟨hmb, hm⟩⟩
    refine ⟨(), by simp [hobject], (), by simp, (), ?_, _, hp, _, ht, _, ho, evidence, hev,
      authority, ha, _, hf, _, ⟨hdb, rfl⟩, drains, hd, _, ⟨hsb, rfl⟩, _, hs, _, ⟨hxb, rfl⟩, _, hx, _,
      ⟨hnb, rfl⟩, _, ⟨hqb, rfl⟩, _, hq, _, ⟨hmb, rfl⟩, _, hr, ?_⟩
    · rintro ⟨hprev, hne⟩
      exact hline.elim hprev hne
    · rw [← hev', ← ha', ← hn, ← hdm, ← hsm, ← hm]

/-! ### Drains and sets -/

/-- What conservative recovery makes of a record. -/
def recoveredRecord (now : TimePoint) (r : DrainRecord) : DrainRecord :=
  if isTransient r.state then
    (r.moved .blocked now "recovered after restart; revalidation required").setBlockers [{
      code := .restartRecoveryPending, subject := "drain:" ++ toString r.id,
      detail := "recovered from state " ++ r.state.toString ++
        "; evidence must be re-attested before the drain can continue",
      since := now }]
  else r

@[simp] theorem recoveredRecord_id (now : TimePoint) (r : DrainRecord) :
    (recoveredRecord now r).id = r.id := by
  unfold recoveredRecord
  split_ifs <;> rfl

/-- Recovery blocks a drain where it stood. -/
theorem phase_recoveredRecord (now : TimePoint) (r : DrainRecord) :
    (recoveredRecord now r).phase = r.phase := by
  unfold recoveredRecord
  split_ifs with htransient
  · have hstate : r.state ≠ .blocked := by
      intro hb
      rw [hb] at htransient
      cases htransient
    exact DrainRecord.phase_moved_blocked hstate now
      "recovered after restart; revalidation required"
  · rfl

/-- A loaded record starts at revision one, so it can always be blocked. -/
theorem recoverDrain_eq {r : DrainRecord} (hrev : r.revision ≠ u64Max) (now : TimePoint) :
    recoverDrain now r = .ok (recoveredRecord now r) := by
  unfold recoverDrain recoveredRecord
  by_cases htransient : isTransient r.state = true
  · have hmove : r.transition .blocked now "recovered after restart; revalidation required" =
        .ok (r.moved .blocked now "recovered after restart; revalidation required") := by
      unfold DrainRecord.transition
      rw [if_neg, if_neg, if_neg hrev]
      · cases hs : r.state <;> simp [hs, isTransient, isLegalDrainTransition] at htransient ⊢
      · rintro hs
        simp [← hs, isTransient] at htransient
    rw [if_neg (not_not.mpr htransient), if_pos htransient, hmove]
    rfl
  · rw [if_pos htransient, if_neg htransient]

theorem loadDrain_eq_ok {s s' : Table DrainRecord.id} {r : DrainRecord} :
    loadDrain s r.toJson = .ok s' ↔ r.Readable ∧ s.emplace r.reloaded = some s' := by
  simp only [loadDrain, bind_eq_ok, orFail_eq_ok, mapError_eq_ok, DrainRecord.fromJson_eq_ok]
  constructor
  · rintro ⟨_, ⟨h, rfl⟩, hput⟩
    exact ⟨h, hput⟩
  · rintro ⟨h, hput⟩
    exact ⟨_, ⟨h, rfl⟩, hput⟩

theorem loadSet_eq_ok {s s' : Table DrainSet.id} {set : DrainSet} :
    loadSet s set.toJson = .ok s' ↔ set.Readable ∧ s.emplace set.persisted = some s' := by
  simp only [loadSet, bind_eq_ok, orFail_eq_ok, mapError_eq_ok, DrainSet.fromJson_eq_ok]
  constructor
  · rintro ⟨_, ⟨h, rfl⟩, hput⟩
    exact ⟨h, hput⟩
  · rintro ⟨h, hput⟩
    exact ⟨_, ⟨h, rfl⟩, hput⟩

/-- Loading and recovering the drains of a table. -/
theorem recoverDrains_eq_ok {t t' : Table DrainRecord.id} {now : TimePoint} :
    (∃ loaded, (t.toList.map DrainRecord.toJson).foldlM loadDrain (Table.empty DrainRecord.id) =
        .ok loaded ∧ loaded.toList.foldlM (recoverStep now) loaded = .ok t') ↔
      (∀ r ∈ t.toList, r.Readable) ∧
        t' = (t.mapVals DrainRecord.reloaded DrainRecord.reloaded_id).mapVals (recoveredRecord now)
          (recoveredRecord_id now) := by
  have hload : ∀ loaded, (t.toList.map DrainRecord.toJson).foldlM loadDrain
      (Table.empty DrainRecord.id) = .ok loaded ↔ (∀ r ∈ t.toList, r.Readable) ∧
        loaded = t.mapVals DrainRecord.reloaded DrainRecord.reloaded_id :=
    fun loaded => Table.foldlM_emplace_eq_ok _ (fun _ _ _ => loadDrain_eq_ok)
  have hrecover : (t.mapVals DrainRecord.reloaded DrainRecord.reloaded_id).toList.foldlM (recoverStep now)
      (t.mapVals DrainRecord.reloaded DrainRecord.reloaded_id) = .ok t' ↔
        t' = (t.mapVals DrainRecord.reloaded DrainRecord.reloaded_id).mapVals (recoveredRecord now)
          (recoveredRecord_id now) := by
    have hstep : ∀ s r, r ∈ (t.mapVals DrainRecord.reloaded DrainRecord.reloaded_id).toList →
        recoverStep now s r = .ok (s.put (recoveredRecord now r)) := by
      intro s r hr
      obtain ⟨original, -, rfl⟩ := List.mem_map.mp hr
      have hrev : original.reloaded.revision ≠ u64Max := by
        show (1 : Nat) ≠ u64Max
        decide
      rw [recoverStep, recoverDrain_eq hrev]
      rfl
    rw [Table.foldlM_put_eq (recoveredRecord_id now) hstep, Except.ok.injEq, eq_comm]
  constructor
  · rintro ⟨loaded, hloaded, hrec⟩
    obtain ⟨hreadable, rfl⟩ := (hload loaded).mp hloaded
    exact ⟨hreadable, hrecover.mp hrec⟩
  · rintro ⟨hreadable, ht'⟩
    exact ⟨_, (hload _).mpr ⟨hreadable, rfl⟩, hrecover.mpr ht'⟩

/-- The drains are recovered one by one. -/
theorem Recovery.drain {e recovered : Engine} {prev : IncarnationId} {now : TimePoint}
    (h : Recovery e prev now recovered) (id : DrainId) :
    recovered.drain id = (e.drain id).map (fun r => recoveredRecord now r.reloaded) := by
  obtain ⟨-, loaded, hload, hrecover, -⟩ := h.drains
  obtain ⟨-, heq⟩ := recoverDrains_eq_ok.mp ⟨loaded, hload, hrecover⟩
  rw [World.drain, heq, Table.find?_mapVals, Table.find?_mapVals, Option.map_map]
  rfl

end Engine

end DrainFabric
