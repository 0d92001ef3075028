import DrainFabric.Identity
import DrainFabric.Lib.Table

/-!
# Evidence

`evidence.hpp`: observations, grouped into streams. Within a stream every new
record must carry a strictly larger sequence number; the ledger is bounded and
makes room by retiring superseded records.

* `EvidenceLedger.record` — the only way a record gets in;
* `EvidenceLedger.isFresh`, `fresh` — what a record must satisfy to prove anything;
* `find_record`, `latest_record` — a write to one stream never loses the newest
  record of another stream.
-/

namespace DrainFabric

open Lib

inductive EvidenceKind
  | admissionClosed | obligationEvacuated | obligationReleased | flowQuiesced | pathAvailable
  | pathLost | capacityAvailable | resourceRemoved | resourceRestored
  deriving DecidableEq, Repr

namespace EvidenceKind

/-- The numeric value of the enumerator. -/
def rank : EvidenceKind → Nat
  | admissionClosed => 0
  | obligationEvacuated => 1
  | obligationReleased => 2
  | flowQuiesced => 3
  | pathAvailable => 4
  | pathLost => 5
  | capacityAvailable => 6
  | resourceRemoved => 7
  | resourceRestored => 8

theorem rank_injective : Function.Injective rank := by
  intro a b h
  cases a <;> cases b <;> simp_all [rank]

def toString : EvidenceKind → String
  | admissionClosed => "admission-closed"
  | obligationEvacuated => "obligation-evacuated"
  | obligationReleased => "obligation-released"
  | flowQuiesced => "flow-quiesced"
  | pathAvailable => "path-available"
  | pathLost => "path-lost"
  | capacityAvailable => "capacity-available"
  | resourceRemoved => "resource-removed"
  | resourceRestored => "resource-restored"

/-- `evidence_kind_from_string`. -/
def fromString (text : String) : Option EvidenceKind :=
  if text = "admission-closed" then some admissionClosed
  else if text = "obligation-evacuated" then some obligationEvacuated
  else if text = "obligation-released" then some obligationReleased
  else if text = "flow-quiesced" then some flowQuiesced
  else if text = "path-available" then some pathAvailable
  else if text = "path-lost" then some pathLost
  else if text = "capacity-available" then some capacityAvailable
  else if text = "resource-removed" then some resourceRemoved
  else if text = "resource-restored" then some resourceRestored
  else none

end EvidenceKind

/-- Identity of an evidence stream. -/
structure EvidenceKey where
  kind : EvidenceKind := .admissionClosed
  drain : DrainId := 0
  obligation : ObligationId := 0
  resource : ResourceId := ""
  deriving DecidableEq, Repr

variable {key : EvidenceKey}

namespace EvidenceKey

/-- The members in the order `operator<` compares them. -/
def lexKey (k : EvidenceKey) : ℕ ×ₗ ℕ ×ₗ ℕ ×ₗ String :=
  toLex (k.kind.rank, toLex (k.drain, toLex (k.obligation, k.resource)))

theorem lexKey_injective : Function.Injective lexKey := by
  rintro ⟨ka, da, oa, ra⟩ ⟨kb, db, ob, rb⟩ h
  simp only [lexKey, EmbeddingLike.apply_eq_iff_eq, Prod.mk.injEq] at h
  obtain ⟨hk, hd, ho, hr⟩ := h
  rw [EvidenceKind.rank_injective hk, hd, ho, hr]

instance : LinearOrder EvidenceKey := LinearOrder.lift' lexKey lexKey_injective

/-- `label`. -/
def label (k : EvidenceKey) : String :=
  k.kind.toString ++ " drain=" ++ toString k.drain ++ " obligation=" ++ toString k.obligation ++
    " resource=" ++ (if k.resource.isEmpty then "-" else k.resource)

end EvidenceKey

/-- One observation. `attested` is false while the record is quarantined. -/
structure Evidence where
  seq : EvidenceSeq := 0
  key : EvidenceKey := {}
  generation : Generation := 0
  epoch : Epoch := 0
  producer : IncarnationId := 0
  authority : AuthorityId := 0
  observedAt : TimePoint := 0
  expiresAt : TimePoint := 0
  healthy : Bool := false
  quantity : Nat := 0
  detail : String := ""
  attested : Bool := false
  deriving DecidableEq, Repr

variable {e : Evidence}

namespace Evidence

/-- `EvidenceRecordKey`: a record is filed under its stream and its sequence. -/
def recordKey (e : Evidence) : EvidenceKey ×ₗ ℕ := toLex (e.key, e.seq)

/-- `to_json`. -/
def toJson (e : Evidence) : JsonValue :=
  .object [("seq", .uint e.seq), ("kind", .string e.key.kind.toString),
    ("drain", .uint e.key.drain), ("obligation", .uint e.key.obligation),
    ("resource", .string e.key.resource), ("generation", .uint e.generation),
    ("epoch", .uint e.epoch), ("producer", .uint e.producer), ("authority", .uint e.authority),
    ("observed_at_ns", .ofCount e.observedAt), ("expires_at_ns", .ofCount e.expiresAt),
    ("healthy", .bool e.healthy), ("quantity", .uint e.quantity), ("detail", .string e.detail),
    ("attested", .bool e.attested)]

/-- `from_json`. Attestation is never read back: a recovered record is
quarantined. -/
def fromJson (value : JsonValue) : Result Evidence := do
  rejectIf (¬ value.isObject) .persistenceCorrupt "evidence entry is not an object"
  let kind ← orFail (EvidenceKind.fromString (value.getString "kind"))
    .persistenceCorrupt "evidence entry has an unknown kind"
  let seq := value.readU64 "seq"
  rejectIf (seq = 0) .persistenceCorrupt "evidence entry has a reserved zero sequence"
  let resource ← optionalSlug value "resource"
    .malformedIdentity "evidence entry has a malformed resource id"
  return { seq, key := { kind, drain := value.readU64 "drain",
                         obligation := value.readU64 "obligation", resource },
           generation := value.readU64 "generation", epoch := value.readU64 "epoch",
           producer := value.readU64 "producer", authority := value.readU64 "authority",
           observedAt := value.readI64 "observed_at_ns",
           expiresAt := value.readI64 "expires_at_ns", healthy := value.getBool "healthy",
           quantity := value.readU64 "quantity", detail := value.getString "detail",
           attested := false }

end Evidence

/-- The live line and clock a record is accepted against. -/
structure EvidenceFence where
  liveIncarnation : IncarnationId := 0
  liveEpoch : Epoch := 0
  now : TimePoint := 0
  allowedSkew : Duration := 0

variable {fence : EvidenceFence}

structure EvidenceLedger where
  records : Table Evidence.recordKey := Table.empty Evidence.recordKey
  latestSeq : OrdMap EvidenceKey EvidenceSeq := Table.empty Prod.fst
  maxRecords : Nat := 200000
  globalHighWater : EvidenceSeq := 0

variable {l : EvidenceLedger}

namespace EvidenceLedger

/-- `find`. -/
def find (l : EvidenceLedger) (key : EvidenceKey) (seq : EvidenceSeq) : Option Evidence :=
  l.records.find? (toLex (key, seq))

/-- `latest`. -/
def latest (l : EvidenceLedger) (key : EvidenceKey) : Option Evidence :=
  match OrdMap.get? l.latestSeq key with
  | none => none
  | some seq => l.find key seq

/-- `high_water`. -/
def highWater (l : EvidenceLedger) (key : EvidenceKey) : EvidenceSeq :=
  (OrdMap.get? l.latestSeq key).getD 0

/-- `is_fresh`. -/
def isFresh (evidence : Evidence) (fence : EvidenceFence) (freshness : Duration) : Bool :=
  evidence.attested && evidence.epoch == fence.liveEpoch &&
    evidence.observedAt ≤ saturatingAdd fence.now fence.allowedSkew &&
    0 < freshness && fence.now ≤ saturatingAdd evidence.observedAt freshness

/-- `fresh`. -/
def fresh (l : EvidenceLedger) (key : EvidenceKey) (fence : EvidenceFence)
    (freshness : Duration) : Option Evidence :=
  (l.latest key).filter (fun candidate => isFresh candidate fence freshness)

/-- `retire_one_for`: the oldest record of the incoming stream if it has one,
otherwise the first record a newer one of its own stream supersedes. -/
def retireOneFor (l : EvidenceLedger) (incoming : EvidenceKey) : Option EvidenceLedger :=
  let superseded (e : Evidence) : Bool :=
    match OrdMap.get? l.latestSeq e.key with
    | none => false
    | some seq => seq != e.seq
  match (l.records.toList.find? (fun e => decide (e.key = incoming))).orElse
      (fun _ => l.records.toList.find? superseded) with
  | none => none
  | some victim => some { l with records := l.records.erase victim.recordKey }

/-- The part of `record` behind the fences: make room, then file the record. -/
def fileRecord (l : EvidenceLedger) (draft : Evidence) : EvidenceLedger × Result Evidence :=
  match (if l.records.size ≥ l.maxRecords then l.retireOneFor draft.key else some l) with
  | none => (l, fail .boundsExceeded "evidence ledger is at capacity")
  | some l =>
    match l.records.emplace { draft with attested := true } with
    | none => (l, fail .duplicateIdentity
        ("this stream already holds a record with sequence " ++ toString draft.seq))
    | some records =>
      ({ l with records, latestSeq := OrdMap.set l.latestSeq draft.key draft.seq,
                globalHighWater := max l.globalHighWater draft.seq },
        .ok { draft with attested := true })

/-- `record`. -/
def record (l : EvidenceLedger) (draft : Evidence) (fence : EvidenceFence)
    (requireLiveIncarnation : Bool) : EvidenceLedger × Result Evidence :=
  if draft.observedAt > saturatingAdd fence.now fence.allowedSkew then
    (l, fail .invalidArgument "evidence observed beyond the tolerated clock skew is rejected")
  else if draft.epoch ≠ fence.liveEpoch then
    (l, fail .staleEpoch "evidence produced under a superseded authority epoch")
  else if requireLiveIncarnation ∧ draft.producer ≠ fence.liveIncarnation then
    (l, fail .staleIncarnation ("evidence produced by incarnation " ++ toString draft.producer ++
      " cannot be accepted by incarnation " ++ toString fence.liveIncarnation))
  else
    match OrdMap.get? l.latestSeq draft.key with
    | some newest =>
      if draft.seq ≤ newest then
        (l, fail .duplicateIdentity ("evidence sequence " ++ toString draft.seq ++
          " is not newer than " ++ toString newest ++ " for " ++ draft.key.label))
      else l.fileRecord draft
    | none => l.fileRecord draft

/-- `quarantine_all`. -/
def quarantineAll (l : EvidenceLedger) : EvidenceLedger :=
  { l with records := l.records.mapVals (fun e => { e with attested := false }) (fun _ => rfl) }

/-- `attest`. -/
def attest (l : EvidenceLedger) (key : EvidenceKey) (seq : EvidenceSeq) (fence : EvidenceFence) :
    Result EvidenceLedger :=
  match l.find key seq with
  | none => fail .notFound "no evidence record for that stream and sequence"
  | some e =>
    if e.epoch ≠ fence.liveEpoch then
      fail .staleEpoch "evidence record belongs to a superseded epoch"
    else if e.producer ≠ fence.liveIncarnation then
      fail .staleIncarnation
        "evidence record was produced by a previous incarnation and cannot be re-attested"
    else .ok { l with records := l.records.put { e with attested := true } }

/-- `to_json`. -/
def toJson (l : EvidenceLedger) : JsonValue :=
  .object [("global_high_water", .uint l.globalHighWater),
    ("records", .array (l.records.toList.map Evidence.toJson))]

/-- One iteration of the loop of `load_from_json`. -/
def loadEntry (loaded : EvidenceLedger) (entry : JsonValue) : Result EvidenceLedger := do
  let evidence ← (Evidence.fromJson entry).mapError (fun err =>
    ⟨.persistenceCorrupt, "evidence entry rejected: " ++ err.message⟩)
  rejectIf ((OrdMap.get? loaded.latestSeq evidence.key).any (fun newest => evidence.seq ≤ newest))
    .persistenceCorrupt "evidence sequence is not monotonic within a stream"
  let records ← orFail (loaded.records.emplace evidence)
    .persistenceCorrupt "duplicate evidence record in snapshot"
  return { loaded with records, latestSeq := OrdMap.set loaded.latestSeq evidence.key evidence.seq,
                       globalHighWater := max loaded.globalHighWater evidence.seq }

/-- `load_from_json`. -/
def loadFromJson (l : EvidenceLedger) (value : JsonValue) : Result EvidenceLedger := do
  rejectIf (¬ value.isObject) .persistenceCorrupt "evidence ledger payload is not an object"
  let items ← orFail (value.findArray "records")
    .persistenceCorrupt "evidence ledger payload lacks a records array"
  rejectIf (items.length > l.maxRecords)
    .boundsExceeded "snapshot evidence count exceeds the configured bound"
  let loaded ← items.foldlM loadEntry { maxRecords := l.maxRecords }
  let declared := value.readU64 "global_high_water"
  rejectIf (declared < loaded.globalHighWater)
    .persistenceCorrupt "evidence high-water mark is behind the stored records"
  return { loaded with globalHighWater := declared }

/-! ### Lemmas -/

theorem isFresh_iff {evidence : Evidence} {freshness : Duration} :
    isFresh evidence fence freshness = true ↔
      evidence.attested = true ∧ evidence.epoch = fence.liveEpoch ∧
        evidence.observedAt ≤ saturatingAdd fence.now fence.allowedSkew ∧
        0 < freshness ∧ fence.now ≤ saturatingAdd evidence.observedAt freshness := by
  simp [isFresh, and_assoc]

theorem key_of_find {seq : EvidenceSeq} (h : l.find key seq = some e) :
    e.key = key ∧ e.seq = seq := by
  have hkey : e.recordKey = toLex (key, seq) := Table.key_of_find? h
  exact Prod.mk.inj (toLex_inj.mp hkey)

/-- The newest record of a stream is the one its high-water mark names. -/
theorem find_of_latest (h : l.latest key = some e) :
    OrdMap.get? l.latestSeq key = some e.seq ∧ l.find key e.seq = some e := by
  unfold latest at h
  cases hseq : OrdMap.get? l.latestSeq key with
  | none => simp [hseq] at h
  | some seq =>
    simp only [hseq] at h
    obtain ⟨-, rfl⟩ := key_of_find h
    exact ⟨rfl, h⟩

theorem latest_of_fresh {freshness : Duration} (h : l.fresh key fence freshness = some e) :
    l.latest key = some e ∧ isFresh e fence freshness = true := by
  unfold fresh at h
  exact Option.filter_eq_some_iff.mp h

/-- Making room for one stream keeps the newest record of every other. -/
theorem latest_retireOneFor {l' : EvidenceLedger} {incoming : EvidenceKey}
    (h : l.retireOneFor incoming = some l') (hkey : key ≠ incoming) (he : l.latest key = some e) :
    l'.latest key = some e := by
  obtain ⟨hseq, hfind⟩ := find_of_latest he
  have hek : e.key = key := (key_of_find hfind).1
  -- The victim is of the incoming stream or is superseded, and `e` is neither.
  have keep : ∀ victim : Evidence, victim.recordKey ≠ e.recordKey →
      ({ l with records := l.records.erase victim.recordKey } : EvidenceLedger).latest key
        = some e := by
    intro victim hne
    have hne' : toLex (key, e.seq) ≠ victim.recordKey := by
      rw [← hek]
      exact fun h => hne h.symm
    simp only [latest, hseq, find, Table.find?_erase, if_neg hne']
    exact hfind
  unfold retireOneFor at h
  cases hin : l.records.toList.find? (fun x => decide (x.key = incoming)) with
  | some victim =>
    simp only [hin, Option.orElse_some, Option.some.injEq] at h
    subst h
    have hvictim : victim.key = incoming := by simpa using List.find?_some hin
    refine keep victim (fun hsame => hkey ?_)
    have hpair : (victim.key, victim.seq) = (e.key, e.seq) := toLex_inj.mp hsame
    rw [← hek, ← hvictim]
    exact (Prod.mk.inj hpair).1.symm
  | none =>
    simp only [hin, Option.orElse_none] at h
    split at h
    · exact absurd h (by simp)
    · rename_i victim hsup
      obtain rfl := Option.some.inj h
      refine keep victim (fun hsame => ?_)
      have hpair : (victim.key, victim.seq) = (e.key, e.seq) := toLex_inj.mp hsame
      obtain ⟨hk, hs⟩ := Prod.mk.inj hpair
      have := List.find?_some hsup
      rw [hk, hek, hseq] at this
      simp [hs] at this

/-- What the part of `record` behind the fences can do. -/
theorem fileRecord_cases (l : EvidenceLedger) (draft : Evidence) :
    (∃ err, l.fileRecord draft = (l, .error err)) ∨
      ∃ room, (room = l ∨ l.retireOneFor draft.key = some room) ∧
        ((∃ err, l.fileRecord draft = (room, .error err)) ∨
          l.fileRecord draft =
            ({ room with records := room.records.put { draft with attested := true },
                         latestSeq := OrdMap.set room.latestSeq draft.key draft.seq,
                         globalHighWater := max room.globalHighWater draft.seq },
              .ok { draft with attested := true })) := by
  unfold fileRecord
  split
  · exact Or.inl ⟨_, rfl⟩
  · rename_i room hroom
    refine Or.inr ⟨room, ?_, ?_⟩
    · split_ifs at hroom with hfull
      · exact Or.inr hroom
      · exact Or.inl (Option.some.inj hroom).symm
    · cases hput : room.records.emplace { draft with attested := true } with
      | none => exact Or.inl ⟨_, by rw [fail]⟩
      | some records =>
        obtain ⟨-, rfl⟩ := Table.emplace_eq_some hput
        exact Or.inr rfl

/-- A write to one stream keeps the newest record of every other. -/
theorem latest_record {draft : Evidence} {live : Bool} (hkey : key ≠ draft.key)
    (he : l.latest key = some e) : (l.record draft fence live).1.latest key = some e := by
  have hfile : (l.fileRecord draft).1.latest key = some e := by
    rcases fileRecord_cases l draft with ⟨err, heq⟩ | ⟨room, hroom, hcases⟩
    · rw [heq]; exact he
    · have hroom' : room.latest key = some e := by
        rcases hroom with rfl | hretire
        · exact he
        · exact latest_retireOneFor hretire hkey he
      rcases hcases with ⟨err, heq⟩ | heq
      · rw [heq]; exact hroom'
      · rw [heq]
        obtain ⟨hseq, hfind⟩ := find_of_latest hroom'
        have hne : Evidence.recordKey { draft with attested := true } ≠ toLex (key, e.seq) :=
          fun h => hkey (Prod.mk.inj (toLex_inj.mp h)).1.symm
        simp only [latest, OrdMap.get?_set_of_ne (Ne.symm hkey), hseq, find]
        rw [Table.find?_put_of_ne hne]
        exact hfind
  unfold record
  split_ifs
  · exact he
  · exact he
  · exact he
  · split
    · split_ifs
      · exact he
      · exact hfile
    · exact hfile

end EvidenceLedger

end DrainFabric
