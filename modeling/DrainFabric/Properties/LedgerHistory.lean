import DrainFabric.Codec.Tables
import DrainFabric.Lib.Run

/-!
# The history of the ledger

The ledger is bounded, so records make way for newer ones, and a restart rebuilds the
newest sequence of every stream from the records that are left. Whether an old record
can be filed a second time therefore depends on what was retired: a stream must never
lose its newest record.

* `after_cases` — what one operation does to the newest sequences;
* `ledger_history` — every sequence of operations from the empty ledger.
-/

namespace DrainFabric

open Lib

variable {l : EvidenceLedger} {p : EvidenceKey × EvidenceSeq}

namespace EvidenceLedger

/-- The operations that write a ledger. Reloading reads back what the ledger itself
wrote. -/
inductive LedgerCall
  | record (draft : Evidence) (fence : EvidenceFence) (requireLiveIncarnation : Bool)
  | quarantineAll
  | attest (key : EvidenceKey) (seq : EvidenceSeq) (fence : EvidenceFence)
  | reload

/-- The ledger after an operation; one that fails leaves it as `record` or `attest` or
the reader leave it. -/
def after (l : EvidenceLedger) : LedgerCall → EvidenceLedger
  | .record draft fence requireLiveIncarnation => (l.record draft fence requireLiveIncarnation).1
  | .quarantineAll => l.quarantineAll
  | .attest key seq fence =>
    match l.attest key seq fence with
    | .ok l' => l'
    | .error _ => l
  | .reload =>
    match l.loadFromJson l.toJson with
    | .ok l' => l'
    | .error _ => l

/-- The stream and the sequence of the record that an operation files. -/
def accepted (l : EvidenceLedger) : LedgerCall → Option (EvidenceKey × EvidenceSeq)
  | .record draft fence requireLiveIncarnation =>
    match (l.record draft fence requireLiveIncarnation).2 with
    | .ok e => some (e.key, e.seq)
    | .error _ => none
  | _ => none

/-- The ledger agrees with its indexes and is within its bound. -/
structure Sound (capacity : Nat) (l : EvidenceLedger) : Prop where
  coherent : l.Coherent
  bound : l.maxRecords = capacity
  size : l.records.size ≤ capacity

/-- What an operation does to the newest sequences. -/
inductive Files (l l' : EvidenceLedger) : Option (EvidenceKey × EvidenceSeq) → Prop
  | nothing : l'.latestSeq = l.latestSeq → Files l l' none
  | newer {key : EvidenceKey} {seq : EvidenceSeq} :
      (∀ newest, OrdMap.get? l.latestSeq key = some newest → newest < seq) →
      l'.latestSeq = OrdMap.set l.latestSeq key seq → Files l l' (some (key, seq))

theorem sound_empty (capacity : Nat) : Sound capacity { maxRecords := capacity } :=
  ⟨coherent_empty capacity, rfl, Nat.zero_le _⟩

theorem record_sound {capacity : Nat} (h : l.Sound capacity) (draft : Evidence)
    (fence : EvidenceFence) (live : Bool) : Sound capacity (l.record draft fence live).1 := by
  have hsize := size_record_le (h.size.trans_eq h.bound.symm) draft fence live
  rw [h.bound] at hsize
  exact ⟨h.coherent.record draft fence live,
    (maxRecords_record h.coherent draft fence live).trans h.bound, hsize⟩

/-- A rejected record leaves the ledger as it is. -/
theorem record_error (h : l.Coherent) {draft : Evidence} {fence : EvidenceFence} {live : Bool}
    {err : Error} (herr : (l.record draft fence live).2 = .error err) :
    (l.record draft fence live).1 = l := by
  rcases record_cases h draft fence live with ⟨err', heq⟩ | ⟨room, -, -, -, heq⟩
  · rw [heq]
  · rw [heq] at herr
    cases herr

/-- One operation on a sound ledger. -/
theorem after_cases {capacity : Nat} (h : l.Sound capacity) (c : LedgerCall) :
    Sound capacity (l.after c) ∧ Files l (l.after c) (l.accepted c) := by
  cases c with
  | record draft fence live =>
    refine ⟨record_sound h draft fence live, ?_⟩
    simp only [after, accepted]
    rcases record_cases h.coherent draft fence live with
      ⟨err, heq⟩ | ⟨room, hroom, hnewer, -, heq⟩
    · rw [heq]
      exact .nothing rfl
    · rw [heq]
      refine .newer hnewer ?_
      rcases hroom with rfl | hretire
      · rfl
      · rw [filed, (retireOneFor_spec hretire).1]
  | quarantineAll =>
    refine ⟨⟨h.coherent.quarantineAll, h.bound, ?_⟩, .nothing rfl⟩
    exact (l.records.size_mapVals (fun e => { e with attested := false }) fun _ => rfl).trans_le h.size
  | attest key seq fence =>
    simp only [after, accepted]
    cases hattest : l.attest key seq fence with
    | error err => exact ⟨h, .nothing rfl⟩
    | ok l' =>
      obtain ⟨hlatest, hcapacity, hsize⟩ := attest_frame hattest
      exact ⟨⟨h.coherent.attest hattest, hcapacity.trans h.bound, hsize.trans_le h.size⟩,
        .nothing hlatest⟩
  | reload =>
    simp only [after, accepted]
    cases hload : l.loadFromJson l.toJson with
    | error err => exact ⟨h, .nothing rfl⟩
    | ok l' =>
      have hread := ((loadFromJson_eq_ok h.coherent).mp hload).2
      refine ⟨⟨coherent_load hload, ?_, ?_⟩, .nothing ?_⟩ <;> rw [hread]
      · exact h.bound
      · exact (l.records.size_mapVals _ Evidence.recordKey_persisted).trans_le h.size

/-! ### Histories -/

/-- The records a history files, in their order. -/
def history (capacity : Nat) (calls : List LedgerCall) : List (EvidenceKey × EvidenceSeq) :=
  outputs after accepted { maxRecords := capacity } calls

theorem sound_run (capacity : Nat) (calls : List LedgerCall) :
    Sound capacity (run after { maxRecords := capacity } calls) :=
  run_invariant (P := Sound capacity) (C := fun _ _ => True) (fun _ c h _ => (after_cases h c).1)
    (sound_empty capacity) (always_of_forall (fun _ _ _ => trivial) _)

/-- The newest sequence of a stream was filed. -/
theorem newest_filed (capacity : Nat) (calls : List LedgerCall) {key : EvidenceKey}
    {newest : EvidenceSeq}
    (h : OrdMap.get? (run after { maxRecords := capacity } calls).latestSeq key = some newest) :
    (key, newest) ∈ history capacity calls := by
  induction calls using List.reverseRecOn with
  | nil => cases h
  | append_singleton calls c ih =>
    have hfiles := (after_cases (sound_run capacity calls) c).2
    rw [history, outputs_concat, List.mem_append]
    rw [run_concat] at h
    generalize accepted _ c = filedNow at hfiles ⊢
    cases hfiles with
    | nothing hsame =>
      rw [hsame] at h
      exact Or.inl (ih h)
    | @newer key' seq _ hset =>
      rw [hset, OrdMap.get?_set] at h
      split_ifs at h with hkey
      · right
        rw [← hkey, ← Option.some.inj h]
        exact List.mem_singleton_self _
      · exact Or.inl (ih h)

/-- A filed sequence is a lower bound of the newest of its stream from then on. -/
def UpTo (p : EvidenceKey × EvidenceSeq) (l : EvidenceLedger) : Prop :=
  ∃ newest, OrdMap.get? l.latestSeq p.1 = some newest ∧ p.2 ≤ newest

theorem UpTo.files {l' : EvidenceLedger} {filedNow : Option (EvidenceKey × EvidenceSeq)}
    (hp : UpTo p l) (h : Files l l' filedNow) : UpTo p l' := by
  obtain ⟨newest, hnewest, hle⟩ := hp
  cases h with
  | nothing hsame => exact ⟨newest, hsame ▸ hnewest, hle⟩
  | @newer key seq hlater hset =>
    rw [UpTo, hset, OrdMap.get?_set]
    split_ifs with hkey
    · exact ⟨seq, rfl, hle.trans (hlater newest (hkey ▸ hnewest)).le⟩
    · exact ⟨newest, hnewest, hle⟩

theorem UpTo.of_files {key : EvidenceKey} {seq : EvidenceSeq} {l' : EvidenceLedger}
    (h : Files l l' (some (key, seq))) : UpTo (key, seq) l' := by
  cases h with
  | newer _ hset => exact ⟨seq, by rw [hset, OrdMap.get?_set, if_pos rfl], le_rfl⟩

/-- Every record of a history is at most the newest of its stream. -/
theorem upTo_run (capacity : Nat) (calls : List LedgerCall) (hp : p ∈ history capacity calls) :
    UpTo p (run after { maxRecords := capacity } calls) := by
  induction calls using List.reverseRecOn with
  | nil => cases hp
  | append_singleton calls c ih =>
    have hfiles := (after_cases (sound_run capacity calls) c).2
    rw [history, outputs_concat, List.mem_append] at hp
    rw [run_concat]
    rcases hp with hold | hnow
    · exact (ih hold).files hfiles
    · rw [Option.mem_toList] at hnow
      rw [hnow] at hfiles
      exact .of_files hfiles

end EvidenceLedger

open EvidenceLedger

/-- Every sequence of operations from the empty ledger, under any capacity: the sequences
filed for a stream increase strictly; the ledger stays within its capacity; a stream
that ever filed a record has its newest one stored, and that is the one the ledger gives
out; and a rejected record leaves the ledger as it is. -/
theorem ledger_history (capacity : Nat) (calls : List LedgerCall) :
    (history capacity calls).Pairwise (fun a b => a.1 = b.1 → a.2 < b.2) ∧
      (run after { maxRecords := capacity } calls).records.size ≤ capacity ∧
      (∀ key seq, (key, seq) ∈ history capacity calls → ∃ newest e,
        (key, newest) ∈ history capacity calls ∧
        (∀ seq', (key, seq') ∈ history capacity calls → seq' ≤ newest) ∧
        (run after { maxRecords := capacity } calls).find key newest = some e ∧
        (run after { maxRecords := capacity } calls).latest key = some e) ∧
      ∀ pre draft fence live post err, calls = pre ++ .record draft fence live :: post →
        ((run after { maxRecords := capacity } pre).record draft fence live).2 = .error err →
        run after { maxRecords := capacity } (pre ++ [.record draft fence live]) =
          run after { maxRecords := capacity } pre := by
  refine ⟨?_, (sound_run capacity calls).size, ?_, ?_⟩
  · -- What was filed before is at most the newest of its stream, and a record is newer.
    refine pairwise_outputs (C := fun _ _ => True) (P := Sound capacity)
      (Q := fun p l => Sound capacity l ∧ UpTo p l) ?_ ?_ ?_ ?_ (sound_empty capacity)
      (always_of_forall (fun _ _ _ => trivial) _)
    · intro l c hl _
      exact (after_cases hl c).1
    · intro l c p hl _ hfiled
      obtain ⟨hsound, hfiles⟩ := after_cases hl c
      rw [hfiled] at hfiles
      exact ⟨hsound, .of_files hfiles⟩
    · intro l c p _ hinv
      obtain ⟨hsound, hfiles⟩ := after_cases hinv.1 c
      exact ⟨hsound, hinv.2.files hfiles⟩
    · intro l c p q _ hinv hfiled hstream
      obtain ⟨hsound, hfiles⟩ := after_cases hinv.1 c
      rw [hfiled] at hfiles
      obtain ⟨newest, hnewest, hle⟩ := hinv.2
      cases hfiles with
      | newer hlater _ =>
        rw [hstream] at hnewest
        exact hle.trans_lt (hlater newest hnewest)
  · intro key seq hmem
    obtain ⟨newest, hnewest, -⟩ := upTo_run capacity calls hmem
    have hpresent := (sound_run capacity calls).coherent.present key newest hnewest
    obtain ⟨e, he⟩ := Option.isSome_iff_exists.mp hpresent
    refine ⟨newest, e, newest_filed capacity calls hnewest, fun seq' hmem' => ?_, he, ?_⟩
    · obtain ⟨newest', hnewest', hle⟩ := upTo_run capacity calls hmem'
      obtain rfl := Option.some.inj (hnewest.symm.trans hnewest')
      exact hle
    · simp only [latest, hnewest, he]
  · intro pre draft fence live post err _ herr
    rw [run_concat]
    exact record_error (sound_run capacity pre).coherent herr

namespace OnePort

/-- The port's flow is seen to be released, under a sequence. -/
def sighting (seq : EvidenceSeq) : LedgerCall :=
  .record { seq, key := { kind := .obligationReleased, drain := 1, obligation := 1 } } {} false

/-- A ledger of one record: the second sighting makes the first one go, then the ledger is
read back. -/
def sightings : List LedgerCall := [sighting 1, sighting 2, .reload]

end OnePort

open OnePort in
theorem ledger_history_onePort :
    (history 1 sightings).map Prod.snd = [1, 2] ∧
      (history 1 sightings).Pairwise (fun a b => a.1 = b.1 → a.2 < b.2) ∧
      (run after { maxRecords := 1 } sightings).records.size ≤ 1 ∧
      run after { maxRecords := 1 } (sightings ++ [sighting 1]) =
        run after { maxRecords := 1 } sightings := by
  obtain ⟨hincreasing, hsize, -, -⟩ := ledger_history 1 sightings
  obtain ⟨-, -, -, hrejected⟩ := ledger_history 1 (sightings ++ [sighting 1])
  exact ⟨by decide, hincreasing, hsize, hrejected sightings _ _ _ [] _ rfl rfl⟩

end DrainFabric
