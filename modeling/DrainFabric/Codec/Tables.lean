import DrainFabric.Codec.Values
import DrainFabric.Ledger
import DrainFabric.Policy

/-!
# Reading tables back

What a table of a snapshot is after it was written and read, and when it can be read: its
entries in their persisted form, and the indexes that the reader rebuilds from them.

* `IsCount` — a count that survives being written;
* `DrainPolicy.fromJson_eq_ok`, `ObligationTable.loadFromJson_eq_ok`,
  `EvidenceLedger.loadFromJson_eq_ok`, `AuthorityRegistry.loadFromJson_eq_ok`,
  `AdmissionFence.loadFromJson_eq_ok` — the components of a snapshot.
-/

namespace DrainFabric

open Lib

attribute [local simp] JsonValue.getString JsonValue.findString JsonValue.findArray
  JsonValue.readU64

variable {count : Int} {p : DrainPolicy} {l : EvidenceLedger} {s s' r : AuthorityRegistry}

/-! ### Counts -/

/-- A time or a duration that is read back as it was written. -/
def IsCount (count : Int) : Prop := 0 ≤ count ∧ count ≤ i64Max

instance (count : Int) : Decidable (IsCount count) := inferInstanceAs (Decidable (_ ∧ _))

theorem IsCount.asInt (h : IsCount count) (fallback : Int) :
    (JsonValue.ofCount count).asInt fallback = count :=
  asInt_ofCount h.1 h.2 fallback

theorem IsCount.persisted (h : IsCount count) : persistedCount count = count :=
  h.asInt 0

theorem IsCount.readI64 (h : IsCount count) {value : JsonValue} {key : String}
    (hfind : value.find key = some (.ofCount count)) (fallback : Int) :
    value.readI64 key fallback = count := by
  rw [JsonValue.readI64, hfind]
  exact h.asInt fallback

/-! ### The policy -/

namespace DrainPolicy

/-- The durations of a policy are counts. -/
structure Counted (p : DrainPolicy) : Prop where
  admissionFenceSettle : IsCount p.admissionFenceSettle
  evidenceFreshness : IsCount p.evidenceFreshness
  evacuationRetryInterval : IsCount p.evacuationRetryInterval
  evidenceClockSkew : IsCount p.evidenceClockSkew
  defaultGrace : IsCount p.defaultGrace
  graceByKind : ∀ kind, IsCount (p.graceByKind kind)

/-- The member `grace_by_kind_ns` of a policy document. -/
def graces (p : DrainPolicy) : JsonValue :=
  .object (ObligationKind.all.map (fun kind => (kind.toString, .ofCount (p.graceByKind kind))))

theorem find_graces (p : DrainPolicy) (kind : ObligationKind) :
    p.graces.find kind.toString = some (.ofCount (p.graceByKind kind)) := by
  cases kind <;> simp [graces, ObligationKind.all, ObligationKind.toString]

theorem readGraces_eq (h : p.Counted) (sofar : ObligationKind → Duration) (kind : ObligationKind) :
    readGraces p.graces sofar kind =
      .ok (fun k => if k = kind then p.graceByKind kind else sofar k) := by
  have hcount := h.graceByKind kind
  have hnumber : (JsonValue.ofCount (p.graceByKind kind)).isNumber = true := rfl
  simp only [readGraces, p.find_graces kind, hcount.asInt]
  rw [if_neg (not_not.mpr hnumber), if_neg (not_lt.mpr hcount.1)]

/-- Every grace is read, so the ones the reader starts from do not matter. -/
theorem foldlM_readGraces (h : p.Counted) (sofar : ObligationKind → Duration) :
    ObligationKind.all.foldlM (readGraces p.graces) sofar = .ok p.graceByKind := by
  have hloop : ∀ (kinds : List ObligationKind) (sofar : ObligationKind → Duration),
      kinds.foldlM (readGraces p.graces) sofar =
        .ok (fun k => if k ∈ kinds then p.graceByKind k else sofar k) := by
    intro kinds
    induction kinds with
    | nil =>
      intro sofar
      simp only [List.not_mem_nil, if_false]
      rfl
    | cons kind rest ih =>
      intro sofar
      rw [List.foldlM_cons, readGraces_eq h, ok_bind, ih]
      refine congrArg _ (funext fun k => ?_)
      by_cases hrest : k ∈ rest
      · rw [if_pos hrest, if_pos (List.mem_cons_of_mem _ hrest)]
      · by_cases hk : k = kind
        · rw [if_neg hrest, if_pos hk, if_pos (hk ▸ List.mem_cons_self), hk]
        · rw [if_neg hrest, if_neg hk, if_neg (fun hmem => (List.mem_cons.mp hmem).elim hk hrest)]
  rw [hloop]
  exact congrArg _ (funext fun k => if_pos k.mem_all)

theorem sized_eq_ok {value : JsonValue} {key : String} {raw fallback size : Nat}
    (hfind : value.find key = some (.uint raw)) :
    sized value key fallback = .ok size ↔ raw ≤ u64Max ∧ size = raw := by
  have hraw : value.readU64 key fallback = raw := by
    rw [JsonValue.readU64, hfind]
    rfl
  simp only [sized, hraw]
  split_ifs with hlarge
  · simp [fail, Nat.not_le.mpr hlarge]
  · simp [Nat.not_lt.mp hlarge, eq_comm]

/-- A policy is read back as it was written, when it passes its own check. -/
theorem fromJson_eq_ok {p' : DrainPolicy} (h : p.Counted) :
    fromJson p.toJson = .ok p' ↔ (p.revision ≠ 0 ∧ p.Valid) ∧ p' = p := by
  have hfind : ∀ key raw, p.toJson.find key = some (.uint raw) → ∀ fallback,
      p.toJson.readU64 key fallback = raw := by
    intro key raw hraw fallback
    rw [JsonValue.readU64, hraw]
    rfl
  have hflag : ∀ key flag, p.toJson.find key = some (.bool flag) → ∀ fallback,
      p.toJson.readBool key fallback = flag := by
    intro key flag hraw fallback
    rw [JsonValue.readBool, hraw]
    rfl
  have hcount : ∀ key {count}, IsCount count → p.toJson.find key = some (.ofCount count) →
      ∀ fallback, p.toJson.readI64 key fallback = count :=
    fun _ _ hcount hraw fallback => hcount.readI64 hraw fallback
  have hname : p.toJson.getString "name" "default" = p.name := by
    simp [toJson]
  have hrevision := hfind "revision" p.revision (by simp [toJson])
  have htargets : p.toJson.find "max_targets_per_request" = some (.uint p.maxTargetsPerRequest) := by
    simp [toJson]
  have hset : p.toJson.find "max_drains_in_set" = some (.uint p.maxDrainsInSet) := by simp [toJson]
  have hconcurrent : p.toJson.find "max_concurrent_drains_per_domain" =
      some (.uint p.maxConcurrentDrainsPerDomain) := by simp [toJson]
  have hobligations : p.toJson.find "max_obligations" = some (.uint p.maxObligations) := by
    simp [toJson]
  have hevidence : p.toJson.find "max_evidence_records" = some (.uint p.maxEvidenceRecords) := by
    simp [toJson]
  have hdecisions : p.toJson.find "max_decisions_retained" =
      some (.uint p.maxDecisionsRetained) := by simp [toJson]
  have hblockers : p.toJson.find "max_blockers_per_drain" = some (.uint p.maxBlockersPerDrain) := by
    simp [toJson]
  have hconnections : p.toJson.find "max_connections" = some (.uint p.maxConnections) := by
    simp [toJson]
  have hthreads : p.toJson.find "max_worker_threads" = some (.uint p.maxWorkerThreads) := by
    simp [toJson]
  have hpending : p.toJson.find "max_pending_work" = some (.uint p.maxPendingWork) := by
    simp [toJson]
  have hattempts := hfind "max_evacuation_attempts" p.maxEvacuationAttempts (by simp [toJson])
  have hextensions := hfind "max_exception_extensions" p.maxExceptionExtensions (by simp [toJson])
  have hnumerator := hfind "capacity_headroom_numerator" p.capacityHeadroomNumerator
    (by simp [toJson])
  have hdenominator := hfind "capacity_headroom_denominator" p.capacityHeadroomDenominator
    (by simp [toJson])
  have hdiversity := hfind "required_path_diversity" p.requiredPathDiversity (by simp [toJson])
  have hsnapshot := hfind "max_snapshot_bytes" p.maxSnapshotBytes (by simp [toJson])
  have hframe := hfind "max_frame_bytes" p.maxFrameBytes (by simp [toJson])
  have hserialize := hflag "serialize_same_domain_in_set" p.serializeSameDomainInSet
    (by simp [toJson])
  have hrelease := hflag "require_release_evidence" p.requireReleaseEvidence (by simp [toJson])
  have hquiescence := hflag "require_quiescence_evidence" p.requireQuiescenceEvidence
    (by simp [toJson])
  have hlive := hflag "evidence_requires_live_incarnation" p.evidenceRequiresLiveIncarnation
    (by simp [toJson])
  have hreobserve := hflag "reobserve_removal_evidence" p.reobserveRemovalEvidence
    (by simp [toJson])
  have hsettle := hcount "admission_fence_settle_ns" h.admissionFenceSettle (by simp [toJson])
  have hfreshness := hcount "evidence_freshness_ns" h.evidenceFreshness (by simp [toJson])
  have hretry := hcount "evacuation_retry_interval_ns" h.evacuationRetryInterval (by simp [toJson])
  have hskew := hcount "evidence_clock_skew_ns" h.evidenceClockSkew (by simp [toJson])
  have hgrace := hcount "default_grace_ns" h.defaultGrace (by simp [toJson])
  have hgraces : p.toJson.find "grace_by_kind_ns" = some (.object (ObligationKind.all.map
      (fun kind => (kind.toString, .ofCount (p.graceByKind kind))))) := by simp [toJson]
  have hread : ObligationKind.all.foldlM (readGraces (.object (ObligationKind.all.map
      (fun kind => (kind.toString, .ofCount (p.graceByKind kind)))))) defaults.graceByKind =
        .ok p.graceByKind := foldlM_readGraces h _
  simp only [fromJson, bind_eq_ok, pure_eq_ok, rejectIf_eq_ok, orFail_eq_ok, hrevision,
    sized_eq_ok htargets, sized_eq_ok hset, sized_eq_ok hconcurrent, sized_eq_ok hobligations,
    sized_eq_ok hevidence, sized_eq_ok hdecisions, sized_eq_ok hblockers, sized_eq_ok hconnections,
    sized_eq_ok hthreads, sized_eq_ok hpending, hattempts, hextensions, hgraces, hread,
    Except.ok.injEq, exists_eq_left', hname, hserialize, hsettle, hfreshness, hretry, hgrace,
    hskew, hnumerator, hdenominator, hdiversity, hrelease, hquiescence, hlive, hreobserve,
    hsnapshot, hframe, narrowChecked32_eq_some]
  constructor
  · rintro ⟨_, -, _, hrev, _, ⟨-, rfl⟩, _, ⟨-, rfl⟩, _, ⟨-, rfl⟩, _, ⟨-, rfl⟩, _, ⟨-, rfl⟩, _,
      ⟨-, rfl⟩, _, ⟨-, rfl⟩, _, ⟨-, rfl⟩, _, ⟨-, rfl⟩, _, ⟨-, rfl⟩, _, ⟨-, rfl⟩, _, ⟨-, rfl⟩, _,
      hvalid, rfl⟩
    exact ⟨⟨hrev, validate_eq_ok.mp hvalid⟩, rfl⟩
  · rintro ⟨⟨hrev, hvalid⟩, rfl⟩
    have hsmall : ∀ {value cap}, InRange value cap → cap ≤ u64Max → value ≤ u64Max :=
      fun hrange hcap => hrange.2.trans hcap
    exact ⟨(), by simp [toJson], (), hrev,
      _, ⟨hsmall hvalid.maxTargetsPerRequest (by decide), rfl⟩,
      _, ⟨hsmall hvalid.maxDrainsInSet (by decide), rfl⟩,
      _, ⟨hsmall hvalid.maxConcurrentDrainsPerDomain (by decide), rfl⟩,
      _, ⟨hsmall hvalid.maxObligations (by decide), rfl⟩,
      _, ⟨hsmall hvalid.maxEvidenceRecords (by decide), rfl⟩,
      _, ⟨hsmall hvalid.maxDecisionsRetained (by decide), rfl⟩,
      _, ⟨hsmall hvalid.maxBlockersPerDrain (by decide), rfl⟩,
      _, ⟨hvalid.maxEvacuationAttempts.2.trans (by decide), rfl⟩,
      _, ⟨hvalid.maxExceptionExtensions.trans (by decide), rfl⟩,
      _, ⟨hsmall hvalid.maxConnections (by decide), rfl⟩,
      _, ⟨hsmall hvalid.maxWorkerThreads (by decide), rfl⟩,
      _, ⟨hsmall hvalid.maxPendingWork (by decide), rfl⟩,
      (), validate_eq_ok.mpr hvalid, rfl⟩

end DrainPolicy

/-! ### Obligations -/

namespace ObligationTable

/-- Obligations are numbered from one, below the high-water mark. -/
def Numbered (t : ObligationTable) : Prop := ∀ o ∈ t.all, o.id ≠ 0 ∧ o.id ≤ t.highWater

theorem loadEntry_eq_ok {loaded loaded' : Table Obligation.id × ObligationId} {o : Obligation} :
    loadEntry loaded o.toJson = .ok loaded' ↔
      o.Readable ∧ o.id ≠ 0 ∧ loaded.1.find? o.id = none ∧
        loaded' = (loaded.1.put o.persisted, max loaded.2 o.id) := by
  simp only [loadEntry, bind_eq_ok, pure_eq_ok, orFail_eq_ok, rejectIf_eq_ok, mapError_eq_ok,
    Obligation.fromJson_eq_ok, Table.emplace_eq_some_iff]
  constructor
  · rintro ⟨_, ⟨hreadable, rfl⟩, _, hzero, _, ⟨hfree, rfl⟩, rfl⟩
    exact ⟨hreadable, hzero, hfree, rfl⟩
  · rintro ⟨hreadable, hzero, hfree, rfl⟩
    exact ⟨_, ⟨hreadable, rfl⟩, (), hzero, _, ⟨hfree, rfl⟩, rfl⟩

/-- A restart recovers the persisted form of every obligation, and no other. -/
theorem loadFromJson_toJson {t u t' : ObligationTable} (h : u.loadFromJson t.toJson = .ok t') :
    t'.obligations = t.obligations.mapVals Obligation.persisted Obligation.persisted_id := by
  simp only [loadFromJson, bind_eq_ok, pure_eq_ok, orFail_eq_ok] at h
  obtain ⟨_, -, items, hitems, _, -, loaded, hfold, _, -, rfl⟩ := h
  obtain rfl : t.all.map Obligation.toJson = items := by
    simpa [toJson] using hitems
  exact Table.foldlM_put Prod.fst Obligation.persisted_id
    (fun _ _ _ hs => by rw [(loadEntry_eq_ok.mp hs).2.2.2]) rfl hfold

theorem loadFromJson_eq_ok {t u t' : ObligationTable} (ht : t.Numbered) :
    u.loadFromJson t.toJson = .ok t' ↔
      (t.size ≤ u.maxObligations ∧ ∀ o ∈ t.all, o.Readable) ∧
        t' = { obligations := t.obligations.mapVals Obligation.persisted Obligation.persisted_id,
               maxObligations := u.maxObligations, highWater := t.highWater } := by
  have hitems : t.toJson.findArray "obligations" = some (t.all.map Obligation.toJson) := by
    simp [toJson]
  have hmark : t.toJson.readU64 "high_water" = t.highWater := by
    simp [toJson]
  have hfold : ∀ (l : List Obligation) (s : Table Obligation.id × ObligationId),
      l.foldl (fun s o => (s.1.put o.persisted, max s.2 o.id)) s =
        (l.foldl (fun s o => s.put o.persisted) s.1, l.foldl (fun mark o => max mark o.id) s.2) := by
    intro l
    induction l with
    | nil => exact fun s => rfl
    | cons o rest ih => exact fun s => ih _
  have hmax : ∀ (l : List Obligation) (mark : Nat), (∀ o ∈ l, o.id ≤ t.highWater) →
      mark ≤ t.highWater → l.foldl (fun mark o => max mark o.id) mark ≤ t.highWater := by
    intro l
    induction l with
    | nil => exact fun mark _ hle => hle
    | cons o rest ih =>
      intro mark hall hle
      obtain ⟨ho, hrest⟩ := List.forall_mem_cons.mp hall
      exact ih _ hrest (max_le hle ho)
  have hload : ∀ loaded, (t.all.map Obligation.toJson).foldlM loadEntry
      (Table.empty Obligation.id, 0) = .ok loaded ↔ (∀ o ∈ t.all, o.Readable) ∧
        loaded = (t.obligations.mapVals Obligation.persisted Obligation.persisted_id,
          t.all.foldl (fun mark o => max mark o.id) 0) := by
    intro loaded
    rw [foldlM_map_eq_ok (g := fun s o => (s.1.put o.persisted, max s.2 o.id))
      (R := Obligation.Readable)
      (I := fun s rest => s.1.Awaits rest ∧ ∀ o ∈ rest, o.id ≠ 0) ?_ ?_
      ⟨Table.awaits_empty t.obligations, fun o ho => (ht o ho).1⟩, hfold,
      ← Table.foldl_put t.obligations Obligation.persisted_id]
    · rfl
    · rintro s o rest s' ⟨hawaits, hids⟩
      rw [loadEntry_eq_ok]
      exact ⟨fun h => ⟨h.1, h.2.2.2⟩, fun h => ⟨h.1, hids o List.mem_cons_self, hawaits.free, h.2⟩⟩
    · rintro s o rest ⟨hawaits, hids⟩
      exact ⟨hawaits.put rfl, fun o' ho' => hids o' (List.mem_cons_of_mem _ ho')⟩
  simp only [loadFromJson, bind_eq_ok, pure_eq_ok, rejectIf_eq_ok, orFail_eq_ok, hitems, hmark,
    Option.some.injEq, exists_eq_left', List.length_map, hload]
  constructor
  · rintro ⟨_, -, _, hbound, _, ⟨hreadable, rfl⟩, _, -, rfl⟩
    exact ⟨⟨Nat.not_lt.mp hbound, hreadable⟩, rfl⟩
  · rintro ⟨⟨hbound, hreadable⟩, rfl⟩
    exact ⟨(), by simp [toJson], (), Nat.not_lt.mpr hbound, _,
      ⟨hreadable, rfl⟩, (),
      Nat.not_lt.mpr (hmax _ _ (fun o ho => (ht o ho).2) (Nat.zero_le _)), rfl⟩

end ObligationTable

/-! ### Evidence -/

namespace EvidenceLedger

theorem loadEntry_eq_ok {l' : EvidenceLedger} {e : Evidence} :
    loadEntry l e.toJson = .ok l' ↔
      e.Readable ∧ (∀ newest, OrdMap.get? l.latestSeq e.key = some newest → newest < e.seq) ∧
        l.records.find? e.recordKey = none ∧ l' = l.filed e.persisted := by
  simp only [loadEntry, bind_eq_ok, pure_eq_ok, orFail_eq_ok, rejectIf_eq_ok, mapError_eq_ok,
    Evidence.fromJson_eq_ok, Table.emplace_eq_some_iff]
  have hnewer : (∀ newest, OrdMap.get? l.latestSeq e.key = some newest → newest < e.seq) ↔
      ¬ (OrdMap.get? l.latestSeq e.persisted.key).any (fun newest => e.persisted.seq ≤ newest) = true := by
    show _ ↔ ¬ (OrdMap.get? l.latestSeq e.key).any (fun newest => e.seq ≤ newest) = true
    cases OrdMap.get? l.latestSeq e.key with
    | none => simp
    | some newest => simp
  rw [hnewer]
  constructor
  · rintro ⟨_, ⟨hreadable, rfl⟩, _, hmonotonic, _, ⟨hfree, rfl⟩, rfl⟩
    exact ⟨hreadable, hmonotonic, hfree, rfl⟩
  · rintro ⟨hreadable, hmonotonic, hfree, rfl⟩
    exact ⟨_, ⟨hreadable, rfl⟩, (), hmonotonic, _, ⟨hfree, rfl⟩, rfl⟩

/-- What the reader keeps while records are still to come: they are all behind those it has
filed, so that none of them can be out of order. -/
structure Reading (capacity top : Nat) (l : EvidenceLedger) (rest : List Evidence) : Prop where
  coherent : l.Coherent
  awaits : l.records.Awaits rest
  bound : l.maxRecords = capacity
  mark : l.globalHighWater ≤ top
  marks : ∀ e ∈ rest, e.seq ≤ top

theorem Reading.newer {capacity top : Nat} {l : EvidenceLedger} {e : Evidence}
    {rest : List Evidence} (h : Reading capacity top l (e :: rest)) {newest : EvidenceSeq}
    (hnewest : OrdMap.get? l.latestSeq e.key = some newest) : newest < e.seq := by
  obtain ⟨filed, hfiled⟩ := Option.isSome_iff_exists.mp (h.coherent.present e.key newest hnewest)
  have hbehind := h.awaits.behind e List.mem_cons_self filed (Table.mem_of_find? hfiled)
  have hkey : filed.recordKey = toLex (e.key, newest) := Table.key_of_find? hfiled
  rw [hkey, Evidence.recordKey, Prod.Lex.toLex_lt_toLex] at hbehind
  exact hbehind.elim (fun hlt => absurd hlt (lt_irrefl _)) And.right

theorem Reading.step {capacity top : Nat} {e : Evidence} {rest : List Evidence}
    (h : Reading capacity top l (e :: rest)) : Reading capacity top (l.filed e.persisted) rest := by
  obtain ⟨he, hrest⟩ := List.forall_mem_cons.mp h.marks
  have hnewer : ∀ newest, OrdMap.get? l.latestSeq e.persisted.key = some newest →
      newest < e.persisted.seq := fun newest hnewest => h.newer hnewest
  exact ⟨coherent_file h.coherent.bound (fun key seq _ hseq => h.coherent.present key seq hseq)
    h.coherent.global hnewer, h.awaits.put e.recordKey_persisted, h.bound, max_le h.mark he, hrest⟩

theorem records_foldl_filed (records : List Evidence) (l : EvidenceLedger) :
    (records.foldl (fun l e => l.filed e.persisted) l).records =
      records.foldl (fun t e => t.put e.persisted) l.records := by
  induction records generalizing l with
  | nil => rfl
  | cons e rest ih => exact ih _

/-- A restart recovers every record of a coherent ledger, and its indexes with them, when
every record can be read and there is room for them. -/
theorem loadFromJson_eq_ok {u l' : EvidenceLedger} (hl : l.Coherent) :
    u.loadFromJson l.toJson = .ok l' ↔
      (l.records.size ≤ u.maxRecords ∧ ∀ e ∈ l.records.toList, e.Readable) ∧
      l' = { records := l.records.mapVals Evidence.persisted Evidence.recordKey_persisted,
             latestSeq := l.latestSeq, maxRecords := u.maxRecords,
             globalHighWater := l.globalHighWater } := by
  have hitems : l.toJson.findArray "records" = some (l.records.toList.map Evidence.toJson) := by
    simp [toJson]
  have hglobal : l.toJson.readU64 "global_high_water" = l.globalHighWater := by
    simp [toJson]
  have hstart : Reading u.maxRecords l.globalHighWater { maxRecords := u.maxRecords }
      l.records.toList := by
    refine ⟨coherent_empty _, Table.awaits_empty l.records, rfl, Nat.zero_le _, fun e he => ?_⟩
    obtain ⟨newest, hnewest, hle⟩ := hl.bound e.key e.seq e (Table.find?_of_mem he)
    exact hle.trans (hl.global e.key newest hnewest)
  have hload : ∀ loaded, (l.records.toList.map Evidence.toJson).foldlM loadEntry
      { maxRecords := u.maxRecords } = .ok loaded ↔ (∀ e ∈ l.records.toList, e.Readable) ∧
        loaded = l.records.toList.foldl (fun l e => l.filed e.persisted)
          { maxRecords := u.maxRecords } := by
    intro loaded
    refine foldlM_map_eq_ok (I := Reading u.maxRecords l.globalHighWater) ?_
      (fun _ _ _ h => h.step) hstart
    intro s e rest s' h
    rw [loadEntry_eq_ok]
    exact ⟨fun hs => ⟨hs.1, hs.2.2.2⟩, fun hs => ⟨hs.1, fun _ => h.newer, h.awaits.free, hs.2⟩⟩
  have hend := foldl_hands_on (I := Reading u.maxRecords l.globalHighWater)
    (g := fun (l : EvidenceLedger) (e : Evidence) => l.filed e.persisted) (fun _ _ _ h => h.step) hstart
  have hrecords := records_foldl_filed l.records.toList { maxRecords := u.maxRecords }
  simp only [loadFromJson, bind_eq_ok, pure_eq_ok, rejectIf_eq_ok, orFail_eq_ok, hitems, hglobal,
    Option.some.injEq, exists_eq_left', List.length_map, hload]
  generalize l.records.toList.foldl (fun (l : EvidenceLedger) e => l.filed e.persisted)
    ({ maxRecords := u.maxRecords } : EvidenceLedger) = loaded at hend hrecords ⊢
  rw [show (({ maxRecords := u.maxRecords } : EvidenceLedger).records) = Table.empty _ from rfl,
    Table.foldl_put l.records Evidence.recordKey_persisted] at hrecords
  have hlatest : loaded.latestSeq = l.latestSeq := by
    refine hl.latestSeq_ext hend.coherent (fun key seq => ?_)
    rw [find, find, hrecords, Table.find?_mapVals, Option.isSome_map]
  have hresult : ({ loaded with globalHighWater := l.globalHighWater } : EvidenceLedger) =
      { records := l.records.mapVals Evidence.persisted Evidence.recordKey_persisted,
        latestSeq := l.latestSeq, maxRecords := u.maxRecords,
        globalHighWater := l.globalHighWater } := by
    rw [hrecords, hlatest, hend.bound]
  constructor
  · rintro ⟨_, -, _, hbound, _, ⟨hreadable, rfl⟩, _, -, rfl⟩
    exact ⟨⟨Nat.not_lt.mp hbound, hreadable⟩, hresult⟩
  · rintro ⟨⟨hbound, hreadable⟩, rfl⟩
    exact ⟨(), by simp [toJson], (), Nat.not_lt.mpr hbound, _,
      ⟨hreadable, rfl⟩, (), Nat.not_lt.mpr hend.mark, hresult⟩

end EvidenceLedger

/-! ### Authority -/

namespace AuthorityRegistry

/-- Tokens are numbered below the high-water mark. -/
def Numbered (r : AuthorityRegistry) : Prop := ∀ t ∈ r.tokens.toList, t.id ≤ r.highWater

structure Readable (r : AuthorityRegistry) : Prop where
  epoch : r.epoch ≠ 0
  scopeBound : r.scopeGenerations.size ≤ maxAuthorityTokens
  scopes : ∀ p ∈ r.scopeGenerations.toList, IsOptionalSlug p.1
  tokenBound : r.tokens.size ≤ maxAuthorityTokens
  tokens : ∀ t ∈ r.tokens.toList, t.Readable

theorem loadScope_eq_ok {p : DomainId × Generation} :
    loadScope s (.object [("scope", .string p.1), ("generation", .uint p.2)]) = .ok s' ↔
      IsOptionalSlug p.1 ∧
        s' = { s with scopeGenerations := OrdMap.set s.scopeGenerations p.1 p.2 } := by
  have hscope : (JsonValue.object [("scope", .string p.1), ("generation", .uint p.2)]).find "scope" =
      some (.string p.1) := by simp
  have hgeneration : (JsonValue.object [("scope", .string p.1),
      ("generation", .uint p.2)]).readU64 "generation" = p.2 := by
    simp
  simp only [loadScope, bind_eq_ok, pure_eq_ok, optionalSlug_iff hscope, hgeneration]
  constructor
  · rintro ⟨_, ⟨hslug, rfl⟩, rfl⟩
    exact ⟨hslug, rfl⟩
  · rintro ⟨hslug, rfl⟩
    exact ⟨_, ⟨hslug, rfl⟩, rfl⟩

theorem loadToken_eq_ok {t : AuthorityToken} :
    loadToken s t.toJson = .ok s' ↔
      t.Readable ∧ s' = { s with highWater := max s.highWater t.id,
                                 tokens := (s.tokens.emplace t.persisted).getD s.tokens } := by
  simp only [loadToken, bind_eq_ok, pure_eq_ok, mapError_eq_ok, AuthorityToken.fromJson_eq_ok]
  constructor
  · rintro ⟨_, ⟨hreadable, rfl⟩, rfl⟩
    exact ⟨hreadable, rfl⟩
  · rintro ⟨hreadable, rfl⟩
    exact ⟨_, ⟨hreadable, rfl⟩, rfl⟩

/-- The scopes of a registry are read back. -/
theorem foldlM_loadScope (hs : s.scopeGenerations = Table.empty Prod.fst) :
    (r.scopeGenerations.toList.map (fun p =>
      JsonValue.object [("scope", .string p.1), ("generation", .uint p.2)])).foldlM loadScope s =
        .ok s' ↔ (∀ p ∈ r.scopeGenerations.toList, IsOptionalSlug p.1) ∧
          s' = { s with scopeGenerations := r.scopeGenerations } := by
  rw [foldlM_map_eq_ok (I := fun _ _ => True)
    (fun s p rest s' _ => loadScope_eq_ok) (fun _ _ _ _ => trivial) trivial,
    foldl_field AuthorityRegistry.scopeGenerations (fun s u => { s with scopeGenerations := u })
      (fun _ _ => rfl) (fun _ => rfl) (fun _ _ _ => rfl) (fun u (p : DomainId × Generation) => OrdMap.set u p.1 p.2),
    hs, OrdMap.foldl_set_toList]

/-- The tokens of a registry are read back, each revoked. -/
theorem foldlM_loadToken (hr : r.Numbered) (hs : s.tokens = Table.empty AuthorityToken.id)
    (hmark : s.highWater = r.highWater) :
    (r.tokens.toList.map AuthorityToken.toJson).foldlM loadToken s = .ok s' ↔
      (∀ t ∈ r.tokens.toList, t.Readable) ∧
        s' = { s with tokens := r.tokens.mapVals AuthorityToken.persisted AuthorityToken.persisted_id } := by
  rw [foldlM_map_eq_ok (g := fun s t => { s with tokens := s.tokens.put t.persisted })
    (R := AuthorityToken.Readable)
    (I := fun s rest => s.tokens.Awaits rest ∧ ∀ t ∈ rest, t.id ≤ s.highWater) ?_ ?_ ?_,
    foldl_field AuthorityRegistry.tokens (fun s u => { s with tokens := u })
      (fun _ _ => rfl) (fun _ => rfl) (fun _ _ _ => rfl) (fun u (t : AuthorityToken) => u.put t.persisted),
    hs, Table.foldl_put r.tokens AuthorityToken.persisted_id]
  · rintro s t rest s' ⟨hawaits, hids⟩
    rw [loadToken_eq_ok, max_eq_left (hids t List.mem_cons_self),
      Table.emplace_of_none (v := t.persisted) hawaits.free, Option.getD_some]
  · rintro s t rest ⟨hawaits, hids⟩
    exact ⟨hawaits.put rfl, fun t' ht' => hids t' (List.mem_cons_of_mem _ ht')⟩
  · rw [hs, hmark]
    exact ⟨Table.awaits_empty r.tokens, hr⟩

theorem loadFromJson_eq_ok {r' : AuthorityRegistry} (hr : r.Numbered) :
    loadFromJson r.toJson = .ok r' ↔
      r.Readable ∧ r' = { r with
        tokens := r.tokens.mapVals AuthorityToken.persisted AuthorityToken.persisted_id } := by
  have hepoch : r.toJson.readU64 "epoch" 1 = r.epoch := by
    simp [toJson]
  have hmark : r.toJson.readU64 "high_water" = r.highWater := by
    simp [toJson]
  have hincarnation : r.toJson.readU64 "incarnation" = r.incarnation := by
    simp [toJson]
  have hscopes : r.toJson.findArray "scope_generations" =
      some (r.scopeGenerations.toList.map (fun p =>
        JsonValue.object [("scope", .string p.1), ("generation", .uint p.2)])) := by
    simp [toJson]
  have htokens : r.toJson.findArray "tokens" = some (r.tokens.toList.map AuthorityToken.toJson) := by
    simp [toJson]
  simp only [loadFromJson, bind_eq_ok, rejectIf_eq_ok, hepoch, hmark, hincarnation, hscopes,
    htokens, Option.getD_some, List.length_map]
  constructor
  · rintro ⟨_, -, _, he, _, hsb, staged, hstaged, _, htb, hloaded⟩
    obtain ⟨hs, rfl⟩ := (foldlM_loadScope rfl).mp hstaged
    obtain ⟨ht, rfl⟩ := (foldlM_loadToken hr (by rfl) (by rfl)).mp hloaded
    exact ⟨⟨he, Nat.not_lt.mp hsb, hs, Nat.not_lt.mp htb, ht⟩, rfl⟩
  · rintro ⟨h, rfl⟩
    exact ⟨(), by simp [toJson], (), h.epoch, (), Nat.not_lt.mpr h.scopeBound, _,
      (foldlM_loadScope rfl).mpr ⟨h.scopes, rfl⟩, (), Nat.not_lt.mpr h.tokenBound,
      (foldlM_loadToken hr (by rfl) (by rfl)).mpr ⟨h.tokens, rfl⟩⟩

end AuthorityRegistry

/-! ### The fence -/

namespace AdmissionFence

structure Readable (f : AdmissionFence) : Prop where
  bound : f.entries.size ≤ maxFencedTargets
  entries : ∀ p ∈ f.entries.toList, p.1.Readable ∧ p.2.Readable

theorem loadEntry_eq_ok {s s' : OrdMap DrainTarget FenceEntry} {p : DrainTarget × FenceEntry} :
    loadEntry s (.object [("target", p.1.toJson), ("entry", p.2.toJson)]) = .ok s' ↔
      (p.1.Readable ∧ p.2.Readable) ∧ Table.emplace s (p.1, p.2.persisted) = some s' := by
  have htarget : (JsonValue.object [("target", p.1.toJson), ("entry", p.2.toJson)]).find "target" =
      some p.1.toJson := by simp
  have hentry : (JsonValue.object [("target", p.1.toJson), ("entry", p.2.toJson)]).find "entry" =
      some p.2.toJson := by simp
  simp only [loadEntry, bind_eq_ok, orFail_eq_ok, mapError_eq_ok, htarget, hentry,
    Option.some.injEq, exists_eq_left', DrainTarget.fromJson_eq_ok, FenceEntry.fromJson_eq_ok]
  constructor
  · rintro ⟨_, ⟨ht, rfl⟩, _, ⟨he, rfl⟩, hput⟩
    exact ⟨⟨ht, he⟩, hput⟩
  · rintro ⟨⟨ht, he⟩, hput⟩
    exact ⟨_, ⟨ht, rfl⟩, _, ⟨he, rfl⟩, hput⟩

theorem loadFromJson_eq_ok {f f' : AdmissionFence} :
    loadFromJson f.toJson = .ok f' ↔
      f.Readable ∧
      f'.entries = f.entries.mapVals (fun p => (p.1, p.2.persisted)) (fun _ => rfl) := by
  have hitems : f.toJson.findArray "entries" = some (f.entries.toList.map (fun p =>
      JsonValue.object [("target", p.1.toJson), ("entry", p.2.toJson)])) := by
    simp [toJson]
  have hload : ∀ entries, (f.entries.toList.map (fun p =>
      JsonValue.object [("target", p.1.toJson), ("entry", p.2.toJson)])).foldlM loadEntry
        (Table.empty Prod.fst) = .ok entries ↔
      (∀ p ∈ f.entries.toList, p.1.Readable ∧ p.2.Readable) ∧
        entries = f.entries.mapVals (fun p => (p.1, p.2.persisted)) (fun _ => rfl) :=
    fun entries => Table.foldlM_emplace_eq_ok _ (fun _ _ _ => loadEntry_eq_ok)
  simp only [loadFromJson, bind_eq_ok, pure_eq_ok, rejectIf_eq_ok, orFail_eq_ok, hitems,
    Option.some.injEq, exists_eq_left', List.length_map, hload]
  constructor
  · rintro ⟨_, -, _, hbound, _, ⟨hreadable, rfl⟩, rfl⟩
    exact ⟨⟨Nat.not_lt.mp hbound, hreadable⟩, rfl⟩
  · rintro ⟨h, hentries⟩
    cases f'
    exact ⟨(), by simp [toJson], (), Nat.not_lt.mpr h.bound, _,
      ⟨h.entries, rfl⟩, congrArg AdmissionFence.mk hentries.symm⟩

end AdmissionFence

end DrainFabric
