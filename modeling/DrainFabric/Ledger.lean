import DrainFabric.Evidence

/-!
# Coherence of the evidence ledger

The ledger keeps the newest sequence number of every stream beside the records. A
ledger is `Coherent` when the two agree: the number of a stream is the largest one
among its records, and the record that carries it is there. Every operation of the
ledger keeps this, and reading a snapshot back establishes it.

* `Coherent.record`, `Coherent.quarantineAll`, `Coherent.attest`, `coherent_load` —
  the operations;
* `record_next` — an observation under the next number of its stream is refused only
  for its time, its line or for want of room;
* `Coherent.latestSeq_ext` — the records of a coherent ledger determine its numbers.
-/

namespace DrainFabric

open Lib

variable {l l' room : EvidenceLedger} {key : EvidenceKey} {seq : EvidenceSeq}
  {fence : EvidenceFence} {e draft : Evidence}

namespace EvidenceLedger

structure Coherent (l : EvidenceLedger) : Prop where
  bound : ∀ key seq e, l.find key seq = some e →
    ∃ newest, OrdMap.get? l.latestSeq key = some newest ∧ seq ≤ newest
  present : ∀ key seq, OrdMap.get? l.latestSeq key = some seq → (l.find key seq).isSome = true
  global : ∀ key seq, OrdMap.get? l.latestSeq key = some seq → seq ≤ l.globalHighWater

theorem coherent_empty (maxRecords : Nat) : Coherent { maxRecords } :=
  ⟨fun _ _ _ h => (by cases h), fun _ _ h => (by cases h), fun _ _ h => (by cases h)⟩

/-- Lookups decide coherence, so a change they do not see keeps it. -/
theorem Coherent.congr (h : l.Coherent)
    (hfind : ∀ key seq, (l'.find key seq).isSome = (l.find key seq).isSome)
    (hlatest : l'.latestSeq = l.latestSeq) (hglobal : l'.globalHighWater = l.globalHighWater) :
    l'.Coherent := by
  refine ⟨fun key seq e he => ?_, fun key seq hseq => ?_, fun key seq hseq => ?_⟩
  · have hsome : (l.find key seq).isSome = true := by rw [← hfind, he]; rfl
    obtain ⟨e', he'⟩ := Option.isSome_iff_exists.mp hsome
    rw [hlatest]
    exact h.bound key seq e' he'
  · rw [hlatest] at hseq
    rw [hfind]
    exact h.present key seq hseq
  · rw [hlatest] at hseq
    rw [hglobal]
    exact h.global key seq hseq

theorem find_quarantineAll (l : EvidenceLedger) (key : EvidenceKey) (seq : EvidenceSeq) :
    l.quarantineAll.find key seq = (l.find key seq).map (fun e => { e with attested := false }) :=
  Table.find?_mapVals l.records (fun e => { e with attested := false }) (fun _ => rfl) _

theorem Coherent.quarantineAll (h : l.Coherent) : l.quarantineAll.Coherent := by
  refine h.congr (fun key seq => ?_) rfl rfl
  rw [find_quarantineAll, Option.isSome_map]

/-- An attestation marks one record of the live line. -/
theorem attest_ok (ha : l.attest key seq fence = .ok l') : ∃ e, l.find key seq = some e ∧
    e.epoch = fence.liveEpoch ∧ e.producer = fence.liveIncarnation ∧
    l' = { l with records := l.records.put { e with attested := true } } := by
  unfold EvidenceLedger.attest at ha
  cases hfind : l.find key seq with
  | none => simp [hfind] at ha
  | some e =>
    simp only [hfind] at ha
    split_ifs at ha with hepoch hproducer
    · exact absurd ha fail_ne_ok
    · exact absurd ha fail_ne_ok
    · exact ⟨e, rfl, not_not.mp hepoch, not_not.mp hproducer, (Except.ok.inj ha).symm⟩

theorem Coherent.attest (h : l.Coherent) (ha : l.attest key seq fence = .ok l') : l'.Coherent := by
  obtain ⟨e, hfind, -, -, rfl⟩ := attest_ok ha
  refine h.congr (fun key' seq' => ?_) rfl rfl
  obtain ⟨rfl, rfl⟩ := key_of_find hfind
  rw [find, Table.find?_put]
  split_ifs with hkey
  · have hrecord : toLex (e.key, e.seq) = toLex (key', seq') := hkey
    rw [find, ← hrecord]
    exact (congrArg Option.isSome hfind).symm
  · rfl

/-- An attestation touches no index. -/
theorem attest_frame (ha : l.attest key seq fence = .ok l') :
    l'.latestSeq = l.latestSeq ∧ l'.maxRecords = l.maxRecords ∧
      l'.records.size = l.records.size := by
  obtain ⟨e, hfind, -, -, rfl⟩ := attest_ok ha
  refine ⟨rfl, rfl, Table.size_put_of_mem ?_⟩
  have hkey : Evidence.recordKey e = toLex (key, seq) := Table.key_of_find? hfind
  show (l.records.find? (Evidence.recordKey e)).isSome = true
  rw [hkey]
  exact congrArg Option.isSome hfind

/-- The ledger with the record filed as the newest of its stream. -/
def filed (l : EvidenceLedger) (e : Evidence) : EvidenceLedger :=
  { l with records := l.records.put e, latestSeq := OrdMap.set l.latestSeq e.key e.seq,
           globalHighWater := max l.globalHighWater e.seq }

theorem find_filed (l : EvidenceLedger) (e : Evidence) (key : EvidenceKey) (seq : EvidenceSeq) :
    (l.filed e).find key seq = if e.key = key ∧ e.seq = seq then some e else l.find key seq := by
  have hiff : Evidence.recordKey e = toLex (key, seq) ↔ e.key = key ∧ e.seq = seq := by
    rw [Evidence.recordKey, toLex_inj, Prod.mk.injEq]
  show (l.records.put e).find? (toLex (key, seq)) = _
  rw [Table.find?_put, find]
  by_cases hkey : e.key = key ∧ e.seq = seq
  · rw [if_pos hkey, if_pos (hiff.mpr hkey)]
  · rw [if_neg hkey, if_neg (fun heq => hkey (hiff.mp heq))]

/-- Filing a record newer than every record of its stream, in a ledger that is
coherent but for the records of that stream. -/
theorem coherent_file (hbound : ∀ key seq e', l.find key seq = some e' →
      ∃ newest, OrdMap.get? l.latestSeq key = some newest ∧ seq ≤ newest)
    (hpresent : ∀ key seq, key ≠ e.key → OrdMap.get? l.latestSeq key = some seq →
      (l.find key seq).isSome = true)
    (hglobal : ∀ key seq, OrdMap.get? l.latestSeq key = some seq → seq ≤ l.globalHighWater)
    (hnewer : ∀ newest, OrdMap.get? l.latestSeq e.key = some newest → newest < e.seq) :
    (l.filed e).Coherent := by
  have hfind := find_filed l e
  refine ⟨fun key seq e' he' => ?_, fun key seq hseq => ?_, fun key seq hseq => ?_⟩
  · rw [hfind] at he'
    dsimp only [filed]
    rw [OrdMap.get?_set]
    by_cases hkey : e.key = key
    · rw [if_pos hkey]
      refine ⟨e.seq, rfl, ?_⟩
      split_ifs at he' with hrecord
      · exact hrecord.2.ge
      · obtain ⟨newest, hnewest, hle⟩ := hbound key seq e' he'
        exact hle.trans (hnewer newest (hkey ▸ hnewest)).le
    · rw [if_neg hkey]
      rw [if_neg (fun h => hkey h.1)] at he'
      exact hbound key seq e' he'
  · dsimp only [filed] at hseq
    rw [hfind]
    rw [OrdMap.get?_set] at hseq
    split_ifs at hseq with hkey
    · rw [if_pos ⟨hkey, Option.some.inj hseq⟩]
      rfl
    · rw [if_neg (fun h => hkey h.1)]
      exact hpresent key seq (Ne.symm hkey) hseq
  · dsimp only [filed] at hseq ⊢
    rw [OrdMap.get?_set] at hseq
    split_ifs at hseq with hkey
    · rw [← Option.some.inj hseq]
      exact le_max_right _ _
    · exact (hglobal key seq hseq).trans (le_max_left _ _)

/-- Making room leaves at most the incoming stream without its newest record. -/
theorem retireOneFor_spec {incoming : EvidenceKey} (h : l.retireOneFor incoming = some room) :
    room.latestSeq = l.latestSeq ∧ room.globalHighWater = l.globalHighWater ∧
      room.maxRecords = l.maxRecords ∧
      (∀ key seq e, room.find key seq = some e → l.find key seq = some e) ∧
      ∀ key seq, key ≠ incoming → OrdMap.get? l.latestSeq key = some seq →
        (l.find key seq).isSome = true → (room.find key seq).isSome = true := by
  have hkept : ∀ key seq, key ≠ incoming → OrdMap.get? l.latestSeq key = some seq →
      (l.find key seq).isSome = true → (room.find key seq).isSome = true := by
    intro key seq hkey hseq hsome
    obtain ⟨e, he⟩ := Option.isSome_iff_exists.mp hsome
    have hlatest : l.latest key = some e := by
      simp only [latest, hseq]
      exact he
    have hroom := latest_retireOneFor h hkey hlatest
    obtain ⟨-, hfind⟩ := find_of_latest hroom
    rw [(key_of_find he).2] at hfind
    simp [hfind]
  unfold retireOneFor at h
  dsimp only at h
  split at h
  · cases h
  · rename_i victim hvictim
    obtain rfl := Option.some.inj h
    refine ⟨rfl, rfl, rfl, fun key seq e he => ?_, hkept⟩
    rw [find, Table.find?_erase] at he
    split_ifs at he
    exact he

theorem size_retireOneFor {incoming : EvidenceKey} (h : l.retireOneFor incoming = some room) :
    room.records.size < l.records.size := by
  unfold retireOneFor at h
  dsimp only at h
  split at h
  · cases h
  · rename_i victim hvictim
    obtain rfl := Option.some.inj h
    refine Table.size_erase_of_mem ?_
    cases hown : l.records.toList.find? (fun e => decide (e.key = incoming)) with
    | some e =>
      rw [hown] at hvictim
      exact Option.some.inj hvictim ▸ List.mem_of_find?_eq_some hown
    | none =>
      rw [hown] at hvictim
      exact List.mem_of_find?_eq_some hvictim

/-- A record takes the place of the one that made room for it. -/
theorem size_fileRecord_le (hsize : l.records.size ≤ l.maxRecords) (draft : Evidence) :
    (l.fileRecord draft).1.records.size ≤ l.maxRecords := by
  have hfiled : ∀ room : EvidenceLedger, room.records.size < l.maxRecords →
      ∀ records, room.records.emplace { draft with attested := true } = some records →
      records.size ≤ l.maxRecords := by
    intro room hroom records hput
    rw [(Table.emplace_eq_some hput).2]
    exact (Table.length_putList_le _ room.records.toList).trans hroom
  unfold fileRecord
  split_ifs with hfull
  · cases hretire : l.retireOneFor draft.key with
    | none => exact hsize
    | some room =>
      have hroom := (size_retireOneFor hretire).trans_le hsize
      dsimp only
      split
      · exact hroom.le
      · exact hfiled room hroom _ (by assumption)
  · dsimp only
    split
    · exact hsize
    · exact hfiled l (Nat.not_le.mp hfull) _ (by assumption)

/-- No record of the stream carries the number of a newer draft, whatever was retired. -/
theorem emplace_of_newer (h : l.Coherent)
    (hnewer : ∀ newest, OrdMap.get? l.latestSeq draft.key = some newest → newest < draft.seq)
    (hsub : ∀ key seq e, room.find key seq = some e → l.find key seq = some e) :
    room.records.emplace { draft with attested := true } =
      some (room.records.put { draft with attested := true }) := by
  refine Table.emplace_of_none ?_
  cases hfind : room.find draft.key draft.seq with
  | none => exact hfind
  | some e =>
    obtain ⟨newest, hnewest, hle⟩ := h.bound _ _ _ (hsub _ _ _ hfind)
    exact absurd (hnewer newest hnewest) (not_lt.mpr hle)

/-- With room a newer record is filed and nothing makes way for it. -/
theorem fileRecord_room (h : l.Coherent)
    (hnewer : ∀ newest, OrdMap.get? l.latestSeq draft.key = some newest → newest < draft.seq)
    (hroom : l.records.size < l.maxRecords) :
    l.fileRecord draft =
      (l.filed { draft with attested := true }, .ok { draft with attested := true }) := by
  rw [fileRecord, if_neg (Nat.not_le.mpr hroom)]
  dsimp only
  rw [emplace_of_newer h hnewer (fun _ _ _ he => he)]
  rfl

/-- Behind the fences a newer record is filed, unless there is no room to be made. -/
theorem fileRecord_eq (h : l.Coherent)
    (hnewer : ∀ newest, OrdMap.get? l.latestSeq draft.key = some newest → newest < draft.seq) :
    (l.maxRecords ≤ l.records.size ∧ l.retireOneFor draft.key = none ∧
        l.fileRecord draft = (l, fail .boundsExceeded "evidence ledger is at capacity")) ∨
      ∃ room, (room = l ∨ l.retireOneFor draft.key = some room) ∧
        l.fileRecord draft =
          (room.filed { draft with attested := true }, .ok { draft with attested := true }) := by
  by_cases hfull : l.records.size ≥ l.maxRecords
  · rw [fileRecord, if_pos hfull]
    cases hroom : l.retireOneFor draft.key with
    | none => exact Or.inl ⟨hfull, rfl, rfl⟩
    | some room =>
      refine Or.inr ⟨room, Or.inr rfl, ?_⟩
      dsimp only
      rw [emplace_of_newer h hnewer (retireOneFor_spec hroom).2.2.2.1]
      rfl
  · exact Or.inr ⟨l, Or.inl rfl, fileRecord_room h hnewer (Nat.not_le.mp hfull)⟩

theorem Coherent.filed (h : l.Coherent) (hroom : room = l ∨ l.retireOneFor e.key = some room)
    (hnewer : ∀ newest, OrdMap.get? l.latestSeq e.key = some newest → newest < e.seq) :
    (room.filed e).Coherent := by
  rcases hroom with rfl | hretire
  · exact coherent_file h.bound (fun key seq _ hseq => h.present key seq hseq) h.global hnewer
  · obtain ⟨hlatest, hglobal, -, hsub, hkept⟩ := retireOneFor_spec hretire
    refine coherent_file (fun key seq e' he' => ?_) (fun key seq hne hseq => ?_)
      (fun key seq hseq => ?_) (fun newest hnewest => hnewer newest (hlatest ▸ hnewest))
    · rw [hlatest]
      exact h.bound key seq e' (hsub key seq e' he')
    · rw [hlatest] at hseq
      exact hkept key seq hne hseq (h.present key seq hseq)
    · rw [hlatest] at hseq
      rw [hglobal]
      exact h.global key seq hseq

/-- A record is refused and changes nothing, or it passed every fence and is filed as
the newest of its stream. -/
theorem record_cases (h : l.Coherent) (draft : Evidence) (fence : EvidenceFence) (live : Bool) :
    (∃ err, l.record draft fence live = (l, .error err)) ∨
      ∃ room, (room = l ∨ l.retireOneFor draft.key = some room) ∧
        (∀ newest, OrdMap.get? l.latestSeq draft.key = some newest → newest < draft.seq) ∧
        draft.epoch = fence.liveEpoch ∧
        l.record draft fence live =
          (room.filed { draft with attested := true }, .ok { draft with attested := true }) := by
  have hfile : draft.epoch = fence.liveEpoch →
      (∀ newest, OrdMap.get? l.latestSeq draft.key = some newest → newest < draft.seq) →
      (∃ err, l.fileRecord draft = (l, .error err)) ∨
        ∃ room, (room = l ∨ l.retireOneFor draft.key = some room) ∧
          (∀ newest, OrdMap.get? l.latestSeq draft.key = some newest → newest < draft.seq) ∧
          draft.epoch = fence.liveEpoch ∧
          l.fileRecord draft =
            (room.filed { draft with attested := true }, .ok { draft with attested := true }) := by
    intro hepoch hnewer
    rcases fileRecord_eq h hnewer with ⟨-, -, heq⟩ | ⟨room, hroom, heq⟩
    · exact Or.inl ⟨_, heq⟩
    · exact Or.inr ⟨room, hroom, hnewer, hepoch, heq⟩
  unfold record
  split_ifs with hfuture hepoch hlive
  · exact Or.inl ⟨_, rfl⟩
  · exact Or.inl ⟨_, rfl⟩
  · exact Or.inl ⟨_, rfl⟩
  · rw [ne_eq, not_not] at hepoch
    cases hnewest : OrdMap.get? l.latestSeq draft.key with
    | none =>
      rw [hnewest] at hfile
      exact hfile hepoch (by simp)
    | some newest =>
      rw [hnewest] at hfile
      dsimp only
      split_ifs with hold
      · exact Or.inl ⟨_, rfl⟩
      · refine hfile hepoch (fun newest' h' => ?_)
        rw [← Option.some.inj h']
        exact Nat.not_le.mp hold

theorem size_record_le (hsize : l.records.size ≤ l.maxRecords) (draft : Evidence)
    (fence : EvidenceFence) (live : Bool) :
    (l.record draft fence live).1.records.size ≤ l.maxRecords := by
  unfold record
  split_ifs
  · exact hsize
  · exact hsize
  · exact hsize
  · split
    · split_ifs
      · exact hsize
      · exact size_fileRecord_le hsize draft
    · exact size_fileRecord_le hsize draft

theorem maxRecords_record (h : l.Coherent) (draft : Evidence) (fence : EvidenceFence)
    (live : Bool) : (l.record draft fence live).1.maxRecords = l.maxRecords := by
  rcases record_cases h draft fence live with ⟨err, heq⟩ | ⟨room, hroom, -, -, heq⟩
  · rw [heq]
  · rw [heq]
    rcases hroom with rfl | hretire
    · rfl
    · exact (retireOneFor_spec hretire).2.2.1

/-- A record found after a write was there before, or is the one that was written. -/
theorem find_record {live : Bool} (h : (l.record draft fence live).1.find key seq = some e) :
    l.find key seq = some e ∨
      (e = { draft with attested := true } ∧ draft.epoch = fence.liveEpoch ∧
        (live = true → draft.producer = fence.liveIncarnation)) := by
  have hfile : (l.fileRecord draft).1.find key seq = some e →
      l.find key seq = some e ∨ e = { draft with attested := true } := by
    intro hfind
    rcases fileRecord_cases l draft with ⟨err, heq⟩ | ⟨room, hroom, hcases⟩
    · rw [heq] at hfind
      exact Or.inl hfind
    · have hkept : ∀ {e' : Evidence}, room.find key seq = some e' → l.find key seq = some e' := by
        intro e' he'
        rcases hroom with rfl | hretire
        · exact he'
        · exact (retireOneFor_spec hretire).2.2.2.1 key seq e' he'
      rcases hcases with ⟨err, heq⟩ | heq
      · rw [heq] at hfind
        exact Or.inl (hkept hfind)
      · have hfiled : (room.filed { draft with attested := true }).find key seq = some e := by
          rw [heq] at hfind
          exact hfind
        rw [find_filed] at hfiled
        split_ifs at hfiled
        · exact Or.inr (Option.some.inj hfiled).symm
        · exact Or.inl (hkept hfiled)
  unfold record at h
  split_ifs at h with hfuture hepoch hlive
  · exact Or.inl h
  · exact Or.inl h
  · exact Or.inl h
  · rw [ne_eq, not_not] at hepoch
    have hproducer : live = true → draft.producer = fence.liveIncarnation :=
      fun hreq => by_contra (fun hne => hlive ⟨hreq, hne⟩)
    have hwritten : (l.fileRecord draft).1.find key seq = some e →
        l.find key seq = some e ∨ (e = { draft with attested := true } ∧
          draft.epoch = fence.liveEpoch ∧
          (live = true → draft.producer = fence.liveIncarnation)) := fun hfind =>
      (hfile hfind).imp_right (fun heq => ⟨heq, hepoch, hproducer⟩)
    split at h
    · split_ifs at h
      · exact Or.inl h
      · exact hwritten h
    · exact hwritten h

/-- A record found after an attestation was there before, or is the attested one, of the
live line. -/
theorem find_attest {key' : EvidenceKey} {seq' : EvidenceSeq}
    (ha : l.attest key seq fence = .ok l') (h : l'.find key' seq' = some e) :
    l.find key' seq' = some e ∨
      ∃ e', l.find key' seq' = some e' ∧ e = { e' with attested := true } ∧
        e'.epoch = fence.liveEpoch ∧ e'.producer = fence.liveIncarnation := by
  obtain ⟨old, hfind, hepoch, hproducer, rfl⟩ := attest_ok ha
  obtain ⟨rfl, rfl⟩ := key_of_find hfind
  rw [find, Table.find?_put] at h
  split_ifs at h with hkey
  · have hrecord : toLex (old.key, old.seq) = toLex (key', seq') := hkey
    refine Or.inr ⟨old, ?_, (Option.some.inj h).symm, hepoch, hproducer⟩
    rw [find, ← hrecord]
    exact hfind
  · exact Or.inl h

theorem Coherent.record {l : EvidenceLedger} (h : l.Coherent) (draft : Evidence)
    (fence : EvidenceFence) (live : Bool) : (l.record draft fence live).1.Coherent := by
  rcases record_cases h draft fence live with ⟨err, heq⟩ | ⟨room, hroom, hnewer, -, heq⟩
  · rw [heq]
    exact h
  · rw [heq]
    exact h.filed (e := { draft with attested := true }) hroom hnewer

theorem newer_of_next {draft : Evidence} (hseq : draft.seq = l.highWater draft.key + 1) :
    ∀ newest, OrdMap.get? l.latestSeq draft.key = some newest → newest < draft.seq := by
  intro newest hnewest
  rw [hseq, highWater, hnewest]
  exact Nat.lt_succ_self newest

/-- An observation under the live line and the next number of its stream passes every check,
unless it is from the future. -/
theorem record_eq_fileRecord {draft : Evidence} {fence : EvidenceFence} (live : Bool)
    (hseq : draft.seq = l.highWater draft.key + 1) (hepoch : draft.epoch = fence.liveEpoch)
    (hproducer : draft.producer = fence.liveIncarnation)
    (htime : draft.observedAt ≤ saturatingAdd fence.now fence.allowedSkew) :
    l.record draft fence live = l.fileRecord draft := by
  unfold record
  rw [if_neg (not_lt.mpr htime), if_neg (not_not.mpr hepoch), if_neg (fun hn => hn.2 hproducer)]
  cases hnewest : OrdMap.get? l.latestSeq draft.key with
  | none => rfl
  | some newest =>
    dsimp only
    rw [if_neg (Nat.not_le.mpr (newer_of_next hseq newest hnewest))]

/-- It is filed, unless there is no room. -/
theorem record_next {l : EvidenceLedger} (h : l.Coherent) {draft : Evidence}
    {fence : EvidenceFence} (live : Bool) (hseq : draft.seq = l.highWater draft.key + 1)
    (hepoch : draft.epoch = fence.liveEpoch) (hproducer : draft.producer = fence.liveIncarnation)
    (htime : draft.observedAt ≤ saturatingAdd fence.now fence.allowedSkew) :
    (l.maxRecords ≤ l.records.size ∧ l.retireOneFor draft.key = none ∧
        l.record draft fence live =
          (l, fail .boundsExceeded "evidence ledger is at capacity")) ∨
      ∃ room, (room = l ∨ l.retireOneFor draft.key = some room) ∧
        l.record draft fence live =
          (room.filed { draft with attested := true }, .ok { draft with attested := true }) := by
  rw [record_eq_fileRecord live hseq hepoch hproducer htime]
  exact fileRecord_eq h (newer_of_next hseq)

/-- With room it is filed and nothing makes way for it. -/
theorem record_room {l : EvidenceLedger} (h : l.Coherent) {draft : Evidence}
    {fence : EvidenceFence} (live : Bool) (hseq : draft.seq = l.highWater draft.key + 1)
    (hepoch : draft.epoch = fence.liveEpoch) (hproducer : draft.producer = fence.liveIncarnation)
    (htime : draft.observedAt ≤ saturatingAdd fence.now fence.allowedSkew)
    (hroom : l.records.size < l.maxRecords) :
    l.record draft fence live =
      (l.filed { draft with attested := true }, .ok { draft with attested := true }) := by
  rw [record_eq_fileRecord live hseq hepoch hproducer htime]
  exact fileRecord_room h (newer_of_next hseq) hroom

theorem highWater_filed_of_ne (h : e.key ≠ key) : (l.filed e).highWater key = l.highWater key := by
  simp only [highWater, filed, OrdMap.get?_set_of_ne h]

/-- A write to one stream leaves the mark of every other alone. -/
theorem highWater_record {live : Bool} (hkey : draft.key ≠ key) :
    (l.record draft fence live).1.highWater key = l.highWater key := by
  have hfile : (l.fileRecord draft).1.highWater key = l.highWater key := by
    rcases fileRecord_cases l draft with ⟨err, heq⟩ | ⟨room, hroom, hcases⟩
    · rw [heq]
    · have hmark : room.highWater key = l.highWater key := by
        rcases hroom with rfl | hretire
        · rfl
        · rw [highWater, (retireOneFor_spec hretire).1, highWater]
      rcases hcases with ⟨err, heq⟩ | heq
      · rw [heq, hmark]
      · rw [heq, ← hmark]
        exact highWater_filed_of_ne (e := { draft with attested := true }) hkey
  unfold record
  split_ifs
  · rfl
  · rfl
  · rfl
  · split
    · split_ifs
      · rfl
      · exact hfile
    · exact hfile

/-- The record filed last is the newest of its stream. -/
theorem latest_filed (l : EvidenceLedger) (e : Evidence) : (l.filed e).latest e.key = some e := by
  simp only [latest, filed, OrdMap.get?_set, if_true, find]
  exact Table.find?_put_of_eq rfl

/-! ### Reading back -/

theorem coherent_loadEntry {entry : JsonValue} (h : l.Coherent)
    (hload : loadEntry l entry = .ok l') : l'.Coherent := by
  simp only [loadEntry, bind_eq_ok, pure_eq_ok, rejectIf_eq_ok, orFail_eq_ok] at hload
  obtain ⟨e, -, _, hmonotonic, records, hput, rfl⟩ := hload
  obtain ⟨-, rfl⟩ := Table.emplace_eq_some hput
  refine coherent_file h.bound (fun key seq _ hseq => h.present key seq hseq) h.global ?_
  intro newest hnewest
  rw [hnewest] at hmonotonic
  simpa using hmonotonic

/-- A ledger that was read back is coherent, whatever it was read from. -/
theorem coherent_load {value : JsonValue} (h : l.loadFromJson value = .ok l') : l'.Coherent := by
  simp only [loadFromJson, bind_eq_ok, pure_eq_ok, rejectIf_eq_ok] at h
  obtain ⟨_, -, items, -, _, -, loaded, hfold, _, hdeclared, rfl⟩ := h
  have hloaded : loaded.Coherent :=
    foldlM_ok (fun s entry s' _ hs hstep => coherent_loadEntry hs hstep)
      (coherent_empty l.maxRecords) hfold
  exact ⟨hloaded.bound, hloaded.present,
    fun key seq hseq => (hloaded.global key seq hseq).trans (Nat.not_lt.mp hdeclared)⟩

/-- Of two coherent ledgers with records under the same keys, the numbers agree. -/
theorem Coherent.latestSeq_ext (h : l.Coherent) (h' : l'.Coherent)
    (hfind : ∀ key seq, (l'.find key seq).isSome = (l.find key seq).isSome) :
    l'.latestSeq = l.latestSeq := by
  -- The newest number of a stream in one ledger is a bound for it in the other.
  have key : ∀ {a b : EvidenceLedger}, a.Coherent → b.Coherent →
      (∀ key seq, (a.find key seq).isSome = (b.find key seq).isSome) → ∀ k s,
      OrdMap.get? a.latestSeq k = some s → ∃ s', OrdMap.get? b.latestSeq k = some s' ∧ s ≤ s' := by
    intro a b ha hb hsame k s hs
    have hsome := ha.present k s hs
    rw [hsame] at hsome
    obtain ⟨e, he⟩ := Option.isSome_iff_exists.mp hsome
    exact hb.bound k s e he
  refine OrdMap.ext_get? (fun k => ?_)
  cases hs' : OrdMap.get? l'.latestSeq k with
  | none =>
    cases hs : OrdMap.get? l.latestSeq k with
    | none => rfl
    | some s =>
      obtain ⟨s', hs'', -⟩ := key h h' (fun _ _ => (hfind _ _).symm) k s hs
      rw [hs'] at hs''
      cases hs''
  | some s' =>
    obtain ⟨s, hs, hle⟩ := key h' h hfind k s' hs'
    obtain ⟨s'', hs'', hle'⟩ := key h h' (fun _ _ => (hfind _ _).symm) k s hs
    rw [hs'] at hs''
    obtain rfl := Option.some.inj hs''
    rw [hs, le_antisymm hle hle']

end EvidenceLedger

end DrainFabric
