import DrainFabric.Properties.Passes

/-!
# Revisions of an obligation

Reports on an obligation arrive late, twice and out of order. Each names the revision it
was made against, and is refused if that is not the present one. So what matters is that
the revision moves with everything that counts (`Obligation.progress`), whoever writes
it: a report, the pass that retires the obligation, or a restart, which should change
nothing.

* `revision_fencing` — every change takes one revision, a restart that loses a cleared time
  apart, and every revision is used up by at most one report;
* `restart_forgets_negative_time` — such a restart: a time before zero is not written to
  the snapshot;
* `reobservation_forward_iff` — when the reports that repeat the present state only move
  its proof forward;
* `admission_fresh_iff` — when an admitted obligation starts from the beginning.
-/

namespace DrainFabric

open Lib World Engine

variable {o o' : Obligation} {next : ObligationState} {now : TimePoint} {id : ObligationId}
  {e : Engine} {p : ObligationReport × TimePoint}

/-- What a report can bring about. -/
def Obligation.progress (o : Obligation) : ObligationState × EvidenceSeq × TimePoint × Nat :=
  (o.state, o.releaseEvidence, o.clearedAt, o.reappearances)

/-- A time that a snapshot can represent. -/
def Storable (time : TimePoint) : Prop := 0 ≤ time ∧ time ≤ i64Max

instance (time : TimePoint) : Decidable (Storable time) :=
  inferInstanceAs (Decidable (0 ≤ time ∧ time ≤ i64Max))

/-- The calls and passes happen at times that a snapshot can represent. -/
def Operation.AtStorableTime : Operation → Prop
  | .call c => Storable c.time
  | .advance now => Storable now
  | .restart .. => True

/-! ### One operation -/

/-- What counts stays as it is, or one revision is taken. -/
def Obligation.Tracks (o o' : Obligation) : Prop :=
  o'.progress = o.progress ∧ o'.revision = o.revision ∨ o'.revision = o.revision + 1

theorem Obligation.Tracks.refl (o : Obligation) : o.Tracks o := Or.inl ⟨rfl, rfl⟩

theorem Obligation.Tracks.revision_le (h : o.Tracks o') : o.revision ≤ o'.revision := by
  rcases h with ⟨-, hsame⟩ | hnext
  · exact hsame.ge
  · rw [hnext]
    exact Nat.le_succ _

theorem Obligation.Applied.tracks {evidence : EvidenceSeq} (h : o.Applied next evidence now o') :
    o.Tracks o' := by
  cases h with
  | replayed => exact .refl o
  | reobserved => exact Or.inr rfl
  | moved => exact Or.inr rfl

theorem Obligation.Applied.storable {evidence : EvidenceSeq} (h : o.Applied next evidence now o')
    (hnow : Storable now) (ho : Storable o.clearedAt) : Storable o'.clearedAt := by
  cases h with
  | replayed => exact ho
  | reobserved => exact hnow
  | moved _ _ _ hcleared _ =>
    rcases hcleared with heq | heq | heq <;> rw [heq]
    · exact ho
    · exact hnow
    · exact (by decide : Storable 0)

/-- A restart reads a cleared time back that the snapshot could not represent. Nothing else
that counts changes, and no revision is taken. -/
structure Obligation.LosesTime (o o' : Obligation) (op : Operation) : Prop where
  restart : ∃ prev now, op = .restart prev now
  unstorable : ¬ Storable o.clearedAt
  state : o'.state = o.state
  releaseEvidence : o'.releaseEvidence = o.releaseEvidence
  reappearances : o'.reappearances = o.reappearances
  revision : o'.revision = o.revision

theorem persisted_progress (h : Storable o.clearedAt) : o.persisted.progress = o.progress := by
  rw [Obligation.progress, Obligation.progress]
  show (_, _, persistedCount o.clearedAt, _) = _
  rw [persistedCount_of_nonneg h.1 h.2]
  rfl

theorem Obligation.tracks_persisted (o : Obligation) (prev : IncarnationId) (now : TimePoint) :
    o.Tracks o.persisted ∨ o.LosesTime o.persisted (.restart prev now) := by
  by_cases h : Storable o.clearedAt
  · exact Or.inl (Or.inl ⟨persisted_progress h, rfl⟩)
  · exact Or.inr ⟨⟨prev, now, rfl⟩, h, rfl, rfl, rfl, rfl⟩

/-- An operation keeps the obligation and tracks what counts of it, unless it loses the
cleared time; at times that can be stored, so can the cleared time. -/
theorem perform_obligation (e : Engine) (op : Operation) (ho : e.obligations.find id = some o) :
    ∃ o', (e.perform op).obligations.find id = some o' ∧ (o.Tracks o' ∨ o.LosesTime o' op) ∧
      (op.AtStorableTime → Storable o.clearedAt → Storable o'.clearedAt) := by
  cases op with
  | call c =>
    obtain ⟨o', ho', hrewritten⟩ := (fire_obligationStep e (.call c)).rewritten ho
    refine ⟨o', ho', ?_⟩
    cases hrewritten with
    | kept heq =>
      rw [heq]
      exact ⟨Or.inl (.refl o), fun _ hcleared => hcleared⟩
    | reported _ _ happly heq =>
      obtain ⟨-, happlied⟩ := Obligation.applyState_applied happly
      rw [heq]
      exact ⟨Or.inl happlied.tracks, happlied.storable⟩
  | advance now =>
    rw [perform, advance_eq_run]
    rcases turns_obligation now ho e.drains.keys with hkept | ⟨hretired, -⟩
    · exact ⟨o, hkept, Or.inl (.refl o), fun _ hcleared => hcleared⟩
    · exact ⟨o.retiredAt now, hretired, Or.inl (Or.inr rfl), fun htime _ => htime⟩
  | restart prev now =>
    obtain ⟨o', ho', hrewritten⟩ := (fire_obligationStep e (.restart prev now)).rewritten ho
    refine ⟨o', ho', ?_⟩
    cases hrewritten with
    | kept heq =>
      rw [heq]
      exact ⟨Or.inl (.refl o), fun _ hcleared => hcleared⟩
    | recovered heq =>
      rw [heq]
      refine ⟨o.tracks_persisted prev now, fun _ hcleared => ?_⟩
      show Storable (persistedCount o.clearedAt)
      rwa [persistedCount_of_nonneg hcleared.1 hcleared.2]

theorem revision_le_perform (e : Engine) (op : Operation) (ho : e.obligations.find id = some o) :
    ∃ o', (e.perform op).obligations.find id = some o' ∧ o.revision ≤ o'.revision := by
  obtain ⟨o', ho', htracks | hloses, -⟩ := perform_obligation e op ho
  · exact ⟨o', ho', htracks.revision_le⟩
  · exact ⟨o', ho', hloses.revision.ge⟩

/-- At times that can be stored, the cleared time can be stored at every point. -/
theorem storable_run (ho : e.obligations.find id = some o) (hcleared : Storable o.clearedAt)
    (pre : List Operation) (htimes : ∀ op ∈ pre, op.AtStorableTime) :
    ∃ q, (run perform e pre).obligations.find id = some q ∧ Storable q.clearedAt := by
  refine run_invariant (C := fun _ op => op.AtStorableTime) (P := fun e : Engine => ∃ q,
    e.obligations.find id = some q ∧ Storable q.clearedAt) (fun e op hinv hop => ?_)
    ⟨o, ho, hcleared⟩ (always_of_forall (fun op hop _ => htimes op hop) e)
  obtain ⟨q, hq, hqc⟩ := hinv
  obtain ⟨q', hq', -, hstored⟩ := perform_obligation e op hq
  exact ⟨q', hq', hstored hop hqc⟩

/-! ### Reports -/

/-- A report on the obligation changes what counts of it: the revision it used up. -/
def usedRevision (id : ObligationId) (e : Engine) : Operation → Option Revision
  | .call (.reportObligation report now) =>
    if report.obligation = id ∧
        ((e.reportObligation report now).1.obligations.find id).map Obligation.progress ≠
          (e.obligations.find id).map Obligation.progress then
      some report.expectedRevision
    else none
  | _ => none

/-- Such a report named the present revision, and the revision after it is the next. -/
theorem usedRevision_spec {op : Operation} (ho : e.obligations.find id = some o) {used : Revision}
    (h : usedRevision id e op = some used) :
    used = o.revision ∧ ∃ o', (e.perform op).obligations.find id = some o' ∧
      o'.revision = o.revision + 1 := by
  cases op with
  | advance now => cases h
  | restart prev now => cases h
  | call c =>
    obtain ⟨o', ho', hrewritten⟩ := (fire_obligationStep e (.call c)).rewritten ho
    cases c with
    | reportObligation report now =>
      simp only [usedRevision] at h
      split_ifs at h with hchanged
      have hprogress : o'.progress ≠ o.progress := by
        intro hsame
        refine hchanged.2 ?_
        rw [ho, show (e.reportObligation report now).1.obligations.find id = some o' from ho',
          Option.map_some, Option.map_some, hsame]
      cases hrewritten with
      | kept heq => exact absurd (congrArg _ heq) hprogress
      | reported _ _ happly heq =>
        obtain ⟨hexpected, happlied⟩ := Obligation.applyState_applied happly
        refine ⟨(Option.some.inj h).symm.trans hexpected, o', ho', ?_⟩
        rcases happlied.tracks with ⟨hsame, -⟩ | hnext
        · exact absurd (heq ▸ hsame) hprogress
        · exact heq ▸ hnext
    | _ => cases h

/-- A rejected report leaves the obligations alone. -/
theorem reportObligation_error {report : ObligationReport} {err : Error}
    (h : (e.reportObligation report now).2 = .error err) :
    (e.reportObligation report now).1.obligations = e.obligations := by
  revert h
  unfold reportObligation
  cases hfind : e.obligations.find report.obligation with
  | none => exact fun _ => rfl
  | some o =>
    cases hfence : reportFence e.toWorld report with
    | error err => exact fun _ => rfl
    | ok u =>
      cases happly : o.applyState report.expectedRevision report.next report.evidence now with
      | error err =>
        simp only [happly]
        exact fun _ => trivial
      | ok applied =>
        simp only [happly]
        exact fun h => by cases h

/-- From any state that has the obligation, in any sequence of calls, passes and restarts
from the current snapshot: every change of its state, release evidence, cleared time or
count of reappearances takes exactly one revision, unless it is a restart that loses the
cleared time, for which that time or the time of some call or pass has to be one that a
snapshot cannot represent; the reports on it that bring a change about use up different
revisions, each later than the one before; and a rejected report changes nothing on it. -/
theorem revision_fencing {e : Engine} {id : ObligationId} {o : Obligation}
    (ho : e.obligations.find id = some o) (operations : List Operation) :
    (∀ pre op post, operations = pre ++ op :: post → ∀ q q',
        (run perform e pre).obligations.find id = some q →
        (run perform e (pre ++ [op])).obligations.find id = some q' →
        q'.progress ≠ q.progress → q'.revision = q.revision + 1 ∨ q.LosesTime q' op ∧
          ¬ (Storable o.clearedAt ∧ ∀ op ∈ operations, op.AtStorableTime)) ∧
      (outputs perform (usedRevision id) e operations).Pairwise (· < ·) ∧
      ∀ pre report now post err, operations = pre ++ .call (.reportObligation report now) :: post →
        ((run perform e pre).reportObligation report now).2 = .error err →
        (run perform e (pre ++ [.call (.reportObligation report now)])).obligations.find id =
          (run perform e pre).obligations.find id := by
  refine ⟨?_, ?_, ?_⟩
  · intro pre op post heq q q' hq hq' hchanged
    rw [run_concat] at hq'
    obtain ⟨q₁, hq₁, hstep, -⟩ := perform_obligation (run perform e pre) op hq
    obtain rfl := Option.some.inj (hq'.symm.trans hq₁)
    rcases hstep with (⟨hsame, -⟩ | hnext) | hloses
    · exact absurd hsame hchanged
    · exact Or.inl hnext
    · refine Or.inr ⟨hloses, fun ⟨hcleared, htimes⟩ => hloses.unstorable ?_⟩
      obtain ⟨q₂, hq₂, hstored⟩ := storable_run ho hcleared pre
        (fun op hop => htimes op (by rw [heq]; exact List.mem_append_left _ hop))
      exact Option.some.inj (hq₂.symm.trans hq) ▸ hstored
  · refine pairwise_outputs (C := fun _ _ => True)
      (P := fun e : Engine => ∃ q, e.obligations.find id = some q)
      (Q := fun used e => ∃ q, e.obligations.find id = some q ∧ used < q.revision)
      ?_ ?_ ?_ ?_ ⟨o, ho⟩ (always_of_forall (fun _ _ _ => trivial) e)
    · intro e op hinv _
      obtain ⟨q, hq⟩ := hinv
      obtain ⟨q', hq', -⟩ := revision_le_perform e op hq
      exact ⟨q', hq'⟩
    · intro e op used hinv _ hused
      obtain ⟨q, hq⟩ := hinv
      obtain ⟨rfl, q', hq', hnext⟩ := usedRevision_spec hq hused
      exact ⟨q', hq', hnext ▸ Nat.lt_succ_self _⟩
    · intro e op used _ hinv
      obtain ⟨q, hq, hlt⟩ := hinv
      obtain ⟨q', hq', hle⟩ := revision_le_perform e op hq
      exact ⟨q', hq', hlt.trans_le hle⟩
    · intro e op used later _ hinv hused
      obtain ⟨q, hq, hlt⟩ := hinv
      obtain ⟨rfl, -⟩ := usedRevision_spec hq hused
      exact hlt
  · intro pre report now post err heq herr
    rw [run_concat]
    show ((run perform e pre).reportObligation report now).1.obligations.find id = _
    rw [reportObligation_error herr]

namespace OnePort

/-- The port with a flow over it. -/
def withFlow : Engine :=
  run perform (Engine.init {}) ((setup 1).map .call ++ [.call (admitFlow 1)])

/-- The flow is reported as released, under the record `evidence`. -/
def releaseReport (expected : Revision) (evidence : EvidenceSeq) : ObligationReport :=
  { obligation := 1, expectedRevision := expected, next := .released, evidence }

end OnePort

/-- A release report that arrives twice, around a restart, and then a later one. -/
theorem revision_fencing_onePort :
    (outputs perform (usedRevision 1) OnePort.withFlow
      [.call (.reportObligation (OnePort.releaseReport 1 1) 1), .restart 1 1,
        .call (.reportObligation (OnePort.releaseReport 1 1) 2), .advance 2,
        .call (.reportObligation (OnePort.releaseReport 2 2) 3)]).Pairwise (· < ·) := by
  have hflow : (OnePort.withFlow.obligations.find 1).isSome = true := by
    decide +kernel
  obtain ⟨o, ho⟩ := Option.isSome_iff_exists.mp hflow
  exact (revision_fencing ho _).2.1

/-- The flow is reported as released at a time before zero. After the restart its cleared
time is another one, under the same revision. -/
theorem restart_forgets_negative_time :
    ((run perform OnePort.withFlow [.call (.reportObligation (OnePort.releaseReport 1 1)
        (-1))]).obligations.find 1).map (fun o => (o.revision, o.clearedAt)) = some (2, -1) ∧
      ((run perform OnePort.withFlow [.call (.reportObligation (OnePort.releaseReport 1 1) (-1)),
        .restart 1 1]).obligations.find 1).map (fun o => (o.revision, o.clearedAt)) =
          some (2, 0) := by
  decide +kernel

/-! ### Reports that repeat the present state -/

/-- The engine after a report. -/
def Engine.takeReport (e : Engine) (p : ObligationReport × TimePoint) : Engine :=
  (e.reportObligation p.1 p.2).1

/-- The stored proof does not go back, and a sequence that is not newer changes neither
it nor the cleared time nor the revision. -/
def Engine.MovesForward (e : Engine) (id : ObligationId) (p : ObligationReport × TimePoint) :
    Prop :=
  ∀ o o', e.obligations.find id = some o → (e.takeReport p).obligations.find id = some o' →
    o.releaseEvidence ≤ o'.releaseEvidence ∧
      (p.1.evidence ≤ o.releaseEvidence → o'.releaseEvidence = o.releaseEvidence ∧
        o'.clearedAt = o.clearedAt ∧ o'.revision = o.revision)

/-- The report is taken for the obligation as it is, and carries a sequence before the
stored one. -/
def World.Regresses (w : World) (id : ObligationId) (report : ObligationReport) : Prop :=
  ∃ o, w.obligations.find id = some o ∧ reportFence w report = .ok () ∧
    report.expectedRevision = o.revision ∧ Obligation.KeepsProof o.state ∧
    o.revision ≠ u64Max ∧ report.evidence ≠ 0 ∧ report.evidence < o.releaseEvidence

/-- A report that regresses replaces the proof. -/
theorem takeReport_of_regresses (ho : e.obligations.find p.1.obligation = some o)
    (hnext : p.1.next = o.state) (h : e.Regresses p.1.obligation p.1) :
    p.1.evidence < o.releaseEvidence ∧ ∃ o', (e.takeReport p).obligations.find
      p.1.obligation = some o' ∧ o'.releaseEvidence = p.1.evidence := by
  obtain ⟨q, hq, hfence, hexpected, hkeeps, hmax, hzero, hlt⟩ := h
  obtain rfl := Option.some.inj (ho.symm.trans hq)
  have happly := Obligation.applyState_reobserved hnext hzero hlt.ne hkeeps hmax p.2
  simp only [takeReport, reportObligation, ho, hfence, hexpected, happly]
  exact ⟨hlt, _, (ObligationTable.find_store _ _ _).trans
    (if_pos (ObligationTable.id_of_find ho)), rfl⟩

/-- One report that repeats the present state. -/
theorem movesForward_iff (ho : e.obligations.find id = some o) (hid : p.1.obligation = id)
    (hnext : p.1.next = o.state) : e.MovesForward id p ↔ ¬ e.Regresses id p.1 := by
  by_cases hregresses : e.Regresses id p.1
  · refine iff_of_false (fun hforward => ?_) (not_not.mpr hregresses)
    subst hid
    obtain ⟨hlt, o', ho', hevidence⟩ := takeReport_of_regresses ho hnext hregresses
    exact absurd (hevidence ▸ (hforward o o' ho ho').1) (Nat.not_le.mpr hlt)
  · refine iff_of_true (fun q q' hq hq' => ?_) hregresses
    obtain rfl := Option.some.inj (ho.symm.trans hq)
    obtain ⟨o', ho', hrewritten⟩ :=
      (fire_obligationStep e (.call (.reportObligation p.1 p.2))).rewritten ho
    obtain rfl := Option.some.inj (hq'.symm.trans ho')
    cases hrewritten with
    | kept heq =>
      rw [heq]
      exact ⟨le_rfl, fun _ => ⟨rfl, rfl, rfl⟩⟩
    | reported _ hfence happly heq =>
      obtain ⟨hexpected, happlied⟩ := Obligation.applyState_applied happly
      rw [heq]
      cases happlied with
      | replayed => exact ⟨le_rfl, fun _ => ⟨rfl, rfl, rfl⟩⟩
      | reobserved _ hzero hnew hkeeps hmax =>
        have hlater : o.releaseEvidence ≤ p.1.evidence := by
          refine Nat.not_lt.mp (fun hlt => hregresses ?_)
          exact ⟨o, ho, hfence, hexpected, hkeeps, hmax, hzero, hlt⟩
        exact ⟨hlater, fun hle => absurd (Nat.le_antisymm hle hlater) hnew⟩
      | moved hmoved => exact absurd hnext hmoved

theorem state_takeReport (ho : e.obligations.find id = some o) (hnext : p.1.next = o.state) :
    ∃ o', (e.takeReport p).obligations.find id = some o' ∧ o'.state = o.state := by
  obtain ⟨o', ho', hrewritten⟩ :=
    (fire_obligationStep e (.call (.reportObligation p.1 p.2))).rewritten ho
  refine ⟨o', ho', ?_⟩
  cases hrewritten with
  | kept heq => rw [heq]
  | reported _ _ happly heq =>
    rw [heq, ← hnext]
    exact (SameTerms.of_applyState happly).2

/-- A sequence of reports that repeat the present state of an obligation only moves its
proof forward exactly if none of them that is taken for the obligation as it is carries
a sequence before the stored one. -/
theorem reobservation_forward_iff {e : Engine} {id : ObligationId} {o : Obligation}
    (ho : e.obligations.find id = some o) {reports : List (ObligationReport × TimePoint)}
    (hrepeat : ∀ p ∈ reports, p.1.obligation = id ∧ p.1.next = o.state) :
    (∀ pre p post, reports = pre ++ p :: post → (run takeReport e pre).MovesForward id p) ↔
      ∀ pre p post, reports = pre ++ p :: post → ¬ (run takeReport e pre).Regresses id p.1 := by
  refine forall_congr' fun pre => forall_congr' fun p => forall_congr' fun post =>
    forall_congr' fun heq => ?_
  obtain ⟨hid, hnext⟩ := hrepeat p (by simp [heq])
  -- No report of the sequence moves the obligation to another state.
  have hstays : ∃ q, (run takeReport e pre).obligations.find id = some q ∧ q.state = o.state := by
    refine run_invariant (C := fun _ p => p.1.next = o.state)
      (P := fun e : Engine => ∃ q, e.obligations.find id = some q ∧ q.state = o.state)
      (fun e p hinv hp => ?_) ⟨o, ho, rfl⟩ (always_of_forall (fun p hp _ => ?_) e)
    · obtain ⟨q, hq, hstate⟩ := hinv
      obtain ⟨q', hq', hstate'⟩ := state_takeReport hq (hp.trans hstate.symm)
      exact ⟨q', hq', hstate'.trans hstate⟩
    · exact (hrepeat p (by simp [heq, hp])).2
  obtain ⟨q, hq, hstate⟩ := hstays
  exact movesForward_iff hq hid (hnext.trans hstate.symm)

namespace OnePort

/-- The port with a flow that was reported as released, under the fifth record. -/
def onceReleased : Engine := withFlow.takeReport (releaseReport 1 5, 1)

end OnePort

/-- A newer record moves the proof forward. -/
theorem reobservation_forward_iff_onePort :
    OnePort.onceReleased.MovesForward 1 (OnePort.releaseReport 2 7, 1) := by
  have hflow : (OnePort.onceReleased.obligations.find 1).any
      (fun o => o.state = .released ∧ o.releaseEvidence = 5) = true := by
    decide +kernel
  obtain ⟨o, ho, hstate⟩ := Option.any_eq_true _ _ |>.mp hflow
  rw [decide_eq_true_iff] at hstate
  have hrepeat : ∀ p ∈ [(OnePort.releaseReport 2 7, (1 : TimePoint))],
      p.1.obligation = 1 ∧ p.1.next = o.state := by
    intro p hp
    rw [List.mem_singleton.mp hp, hstate.1]
    exact ⟨rfl, rfl⟩
  refine (reobservation_forward_iff ho hrepeat).mpr ?_ [] _ [] rfl
  intro pre p post heq hregresses
  cases pre with
  | cons first rest => simp at heq
  | nil =>
    obtain ⟨rfl, -⟩ := List.cons.inj heq
    obtain ⟨q, hq, -, -, -, -, -, hlt⟩ := hregresses
    obtain rfl := Option.some.inj (ho.symm.trans hq)
    rw [hstate.2] at hlt
    exact absurd hlt (by decide)

/-- A repeat with the third record replaces the fifth, at a new revision. -/
theorem reobservation_goes_back :
    ((run takeReport OnePort.withFlow [(OnePort.releaseReport 1 5, 1)]).obligations.find 1).map
        (fun o => (o.state, o.releaseEvidence, o.revision)) = some (.released, 5, 2) ∧
      ((run takeReport OnePort.withFlow [(OnePort.releaseReport 1 5, 1),
        (OnePort.releaseReport 2 3, 2)]).obligations.find 1).map
        (fun o => (o.state, o.releaseEvidence, o.revision)) = some (.released, 3, 3) := by
  decide +kernel

/-! ### Where an obligation starts -/

/-- The obligation `o` starts from the beginning in `e'`, which an admission has left
behind after `e`. Its id is unused if no state that led to `e` had an obligation under
it. -/
structure StartsFresh (e e' : Engine) (o : Obligation) (presented : Generation)
    (now : TimePoint) : Prop where
  stored : e'.obligations.find o.id = some o
  unused : ∀ start events, run fire start events = e → start.obligations.find o.id = none
  state : o.state = .admitted
  revision : o.revision = 1
  releaseEvidence : o.releaseEvidence = 0
  clearedAt : o.clearedAt = 0
  reappearances : o.reappearances = 0
  admittedAt : o.admittedAt = now
  admissionGeneration : o.admissionGeneration = presented
  outstanding : o.protection = .protectedClass →
    ∀ target ∈ o.dependencies, o ∈ e'.outstandingFor target

/-- What an accepted admission stores. -/
theorem admitObligation_ok {e' : Engine} {draft : Obligation} {presented : Generation}
    {authority : AuthorityId} (h : e.admitObligation draft presented authority now = (e', .ok o)) :
    e.obligations.find o.id = none ∧ e'.obligations.find o.id = some o ∧
      o = { draft with id := o.id, admittedAt := now, admissionGeneration := presented } := by
  rcases admitObligation_cases e draft presented authority now with
    ⟨-, hrefused⟩ | ⟨-, -, -, hworld, hresult⟩
  · rw [h] at hrefused
    cases hrefused
  · rcases hins : e.obligations.insert
      { draft with admittedAt := now, admissionGeneration := presented } with ⟨obligations, result⟩
    rw [h, hins] at hworld hresult
    obtain rfl : Except.ok o = result := hresult
    obtain ⟨hfree, hdraft, -, htable⟩ := ObligationTable.insert_ok hins
    refine ⟨hfree, ?_, hdraft⟩
    rw [show e'.obligations = obligations from congrArg World.obligations hworld.toWorld, htable]
    exact (ObligationTable.find_store _ _ _).trans (if_pos rfl)

/-- From any state, an admitted obligation starts from the beginning exactly if the draft
says so: admission sets its id, its time and its generation, and takes everything else
from the draft. -/
theorem admission_fresh_iff {e e' : Engine} {draft o : Obligation} {presented : Generation}
    {authority : AuthorityId} {now : TimePoint}
    (h : e.admitObligation draft presented authority now = (e', .ok o)) :
    StartsFresh e e' o presented now ↔
      draft.state = .admitted ∧ draft.revision = 1 ∧ draft.releaseEvidence = 0 ∧
        draft.clearedAt = 0 ∧ draft.reappearances = 0 := by
  obtain ⟨hfree, hstored, hdraft⟩ := admitObligation_ok h
  have hstate : o.state = draft.state := by rw [hdraft]
  have hrevision : o.revision = draft.revision := by rw [hdraft]
  have hevidence : o.releaseEvidence = draft.releaseEvidence := by rw [hdraft]
  have hcleared : o.clearedAt = draft.clearedAt := by rw [hdraft]
  have hreappeared : o.reappearances = draft.reappearances := by rw [hdraft]
  rw [← hstate, ← hrevision, ← hevidence, ← hcleared, ← hreappeared]
  constructor
  · intro hfresh
    exact ⟨hfresh.state, hfresh.revision, hfresh.releaseEvidence, hfresh.clearedAt,
      hfresh.reappearances⟩
  · intro hstart
    obtain ⟨hadmitted, hfirst, hzero, hnever, hcount⟩ := hstart
    have hunused : ∀ start events, run fire start events = e →
        start.obligations.find o.id = none := by
      intro start events hrun
      cases hfind : start.obligations.find o.id with
      | none => rfl
      | some q =>
        -- An obligation never leaves the table, so it would still be there.
        obtain ⟨q', hq', -⟩ := obligation_run hfind events
        rw [hrun, hfree] at hq'
        cases hq'
    refine ⟨hstored, hunused, hadmitted, hfirst, hzero, hnever, hcount,
      by rw [hdraft], by rw [hdraft], ?_⟩
    intro hprotected target htarget
    refine mem_outstandingFor.mpr ⟨hstored, ?_, Obligation.dependsOn_iff.mpr htarget⟩
    refine Obligation.blocksCompletion_iff.mpr ⟨hprotected, ?_⟩
    rw [hadmitted]
    decide

namespace OnePort

/-- A protected flow over the port as a peer may describe it: retired before it starts. -/
def retiredDraft : JsonValue :=
  .object [("kind", .string "active-flow"), ("holder", .string "flow"),
    ("dependencies", .array [port.toJson]), ("protection", .string "protected"),
    ("mode", .string "reroute"), ("state", .string "retired"), ("revision", .uint 7)]

end OnePort

theorem admission_fresh_iff_onePort :
    ∃ e' o, OnePort.withFlow.admitObligation (Obligation.make .activeFlow "flow" [OnePort.port])
      0 1 1 = (e', .ok o) ∧ StartsFresh OnePort.withFlow e' o 0 1 := by
  have hok : (OnePort.withFlow.admitObligation (Obligation.make .activeFlow "flow" [OnePort.port])
      0 1 1).2.isOk = true := by
    decide +kernel
  rcases hadmitted : OnePort.withFlow.admitObligation
    (Obligation.make .activeFlow "flow" [OnePort.port]) 0 1 1 with ⟨e', err | o⟩
  · rw [hadmitted] at hok
    cases hok
  · exact ⟨e', o, rfl, (admission_fresh_iff hadmitted).mpr ⟨rfl, rfl, rfl, rfl, rfl⟩⟩

/-- The draft of the peer is accepted and stored as it is: a protected flow over the port
that the port does not have to wait for. -/
theorem admission_takes_retired_draft :
    ∃ draft, Obligation.fromJson OnePort.retiredDraft = .ok draft ∧
      (OnePort.withFlow.admitObligation draft 0 1 1).2.toOption.map
          (fun o => (o.id, o.protection, o.state, o.revision)) =
        some (2, .protectedClass, .retired, 7) ∧
      ((OnePort.withFlow.admitObligation draft 0 1 1).1.outstandingFor OnePort.port).map
        Obligation.id = [1] := by
  have hall : (Obligation.fromJson OnePort.retiredDraft).toOption.map (fun draft =>
      ((OnePort.withFlow.admitObligation draft 0 1 1).2.toOption.map
          (fun o => (o.id, o.protection, o.state, o.revision)),
        ((OnePort.withFlow.admitObligation draft 0 1 1).1.outstandingFor OnePort.port).map
          Obligation.id)) =
      some (some (2, .protectedClass, .retired, 7), [1]) := by
    decide +kernel
  cases hdraft : Obligation.fromJson OnePort.retiredDraft with
  | error err =>
    rw [hdraft] at hall
    cases hall
  | ok draft =>
    rw [hdraft] at hall
    exact ⟨draft, rfl, Prod.mk.inj (Option.some.inj hall)⟩

end DrainFabric
