import DrainFabric.Engine.Asking
import DrainFabric.Properties.EvacuationBudget
import DrainFabric.Properties.Passes

/-!
# Requests can be answered

An evacuation request carries what the adjacent runtime needs to answer it: the revision
the report has to name and the sequence number of the release evidence. No turn that
follows in the same pass takes either of them away, so an answer in the next two calls is
accepted. Whether it also proves the release is a matter of dates: the evidence must not
be older than the closure of admission, and the closure lies in the past as long as the
clock does not go back.

A snapshot dates a closure before time zero at zero. After such a restart the closure
lies in the future until the clock has passed zero.

* `Punctual` — admission was closed in the past;
* `Open` — what a request promises about the state it is answered in;
* `open_of_request` — every request of a pass is open after the pass;
* `Open.answered` — an open request can be answered.
-/

namespace DrainFabric

open Lib World Engine

variable {clock now : TimePoint} {e : Engine} {q : EvacuationRequest}

/-! ### The date of the closure -/

/-- Every drain that holds its fence closed admission in the past, under a policy that
may be in force. -/
structure Engine.Punctual (clock : TimePoint) (e : Engine) : Prop where
  policy : e.policy.Valid
  coherent : e.evidence.Coherent
  closed : ∀ id r, e.drain id = some r → isFenceHoldingState r.phase = true →
    i64Min ≤ r.admissionClosedAt ∧ r.admissionClosedAt ≤ clock

theorem Engine.Punctual.mono {later : TimePoint} (h : e.Punctual clock) (hle : clock ≤ later) :
    e.Punctual later := by
  refine ⟨h.policy, h.coherent, fun id r hr hp => ?_⟩
  obtain ⟨hmin, hclosed⟩ := h.closed id r hr hp
  exact ⟨hmin, hclosed.trans hle⟩

/-- Whoever sets or restores a policy has checked it. -/
theorem policy_valid_fire (h : e.policy.Valid) (ev : Event) : (e.fire ev).policy.Valid := by
  refine fire_wellFormed (P := fun w => w.policy.Valid) ?_ ?_ e ev h
  · intro w ev w' hwrite hw
    cases hwrite with
    | policy hvalid => exact DrainPolicy.validate_eq_ok.mp hvalid
    | _ => exact hw
  · intro e prev now recovered h _
    exact DrainPolicy.validate_eq_ok.mp (DrainPolicy.validate_of_fromJson h.policy)

/-- A date that a snapshot brings back is in the past if the clock has passed zero. -/
theorem persistedCount_le {count now : Int} (hmin : i64Min ≤ count) (hle : count ≤ now)
    (hnow : 0 ≤ now ∧ now ≤ i64Max) :
    i64Min ≤ persistedCount count ∧ persistedCount count ≤ now := by
  by_cases hneg : count < 0
  · rw [persistedCount_of_neg hneg hmin]
    exact ⟨by decide, hnow.1⟩
  · rw [persistedCount_of_nonneg (not_lt.mp hneg) (hle.trans hnow.2)]
    exact ⟨hmin, hle⟩

/-- Every event keeps the closures in the past, a restart before time zero aside. -/
theorem punctual_fire {ev : Event} (h : e.Punctual clock) (hclock : clock ≤ ev.time)
    (htime : i64Min ≤ ev.time ∧ ev.time ≤ i64Max)
    (hrestarts : ∀ prev now, ev = .restart prev now → 0 ≤ now) : (e.fire ev).Punctual ev.time := by
  have hpast := (h.mono hclock).closed
  refine ⟨policy_valid_fire h.policy ev, coherent_fire e ev h.coherent, fun id r' hr' hp' => ?_⟩
  by_cases hrestart : ∃ prev now, ev = .restart prev now
  · obtain ⟨prev, now, rfl⟩ := hrestart
    simp only [fire, restore] at hr'
    cases hdecode : decodeSnapshot e.policy e.snapshot prev now with
    | error err =>
      rw [hdecode] at hr'
      exact hpast id r' hr' hp'
    | ok recovered =>
      rw [hdecode] at hr'
      obtain ⟨r, hr, -, rfl⟩ := (decodeSnapshot_eq_ok.mp hdecode).of_drain hr'
      rw [phase_recoveredRecord] at hp'
      rw [admissionClosedAt_recovered]
      obtain ⟨hmin, hclosed⟩ := hpast id r hr hp'
      exact persistedCount_le hmin hclosed ⟨hrestarts prev now rfl, htime.2⟩
  · have hev : ∀ prev now, ev ≠ .restart prev now :=
      fun prev now heq => hrestart ⟨prev, now, heq⟩
    obtain ⟨r, hr, hphase⟩ := ((fire_drainStep e ev).fate hr').fenceHolding hp'
    obtain ⟨q, hq, hdated⟩ := fire_dated hev hr
    obtain rfl := Option.some.inj (hq.symm.trans hr')
    -- The drain held its fence already, or it closes admission with this event.
    rcases hphase with hp | ⟨hv, -⟩
    · rcases hdated.kept with heq | heq <;> rw [heq]
      · exact hpast id r hr hp
      · exact ⟨htime.1, le_rfl⟩
    · rw [hdated.of_closing hv hp']
      exact ⟨htime.1, le_rfl⟩

/-- The operation happens at a time of the machine type, and a snapshot is not restored
before time zero. -/
def Operation.Dated (op : Operation) : Prop :=
  (i64Min ≤ op.time ∧ op.time ≤ i64Max) ∧
    match op with
    | .restart _ now => 0 ≤ now
    | _ => True

instance (op : Operation) : Decidable op.Dated := by
  unfold Operation.Dated
  cases op <;> exact inferInstance

theorem punctual_perform {op : Operation} (h : e.Punctual clock) (hclock : clock ≤ op.time)
    (hop : op.Dated) : (e.perform op).Punctual op.time := by
  cases op with
  | call c =>
    show (e.fire (.call c)).Punctual (Event.call c).time
    exact punctual_fire h hclock hop.1 (fun _ _ heq => by cases heq)
  | restart prev now =>
    show (e.fire (.restart prev now)).Punctual (Event.restart prev now).time
    refine punctual_fire h hclock hop.1 (fun prev' now' heq => ?_)
    cases heq
    exact hop.2
  | advance now =>
    refine advance_invariant (P := fun e : Engine => e.Punctual now) (fun e id h => ?_)
      (h.mono hclock)
    show (e.fire (.turn id now)).Punctual (Event.turn id now).time
    exact punctual_fire h le_rfl hop.1 (fun _ _ heq => by cases heq)

theorem punctual_run {policy : DrainPolicy} (hvalid : policy.validate = .ok ())
    {operations : List Operation}
    (hordered : (operations ++ [Operation.advance now]).Pairwise (fun a b => a.time ≤ b.time))
    (hdated : ∀ op ∈ operations ++ [.advance now], op.Dated) :
    ((run perform (Engine.init policy) operations).advance now).1.Punctual now := by
  have hstart : (Engine.init policy).Punctual i64Min :=
    ⟨DrainPolicy.validate_eq_ok.mp hvalid,
      EvidenceLedger.coherent_empty policy.maxEvidenceRecords, fun _ _ hr => by simp at hr⟩
  obtain ⟨hoperations, -, hcross⟩ := List.pairwise_append.mp hordered
  have hnow := hdated (.advance now) (List.mem_append_right _ List.mem_cons_self)
  have hbefore : (run perform (Engine.init policy) operations).Punctual now := by
    refine run_ordered (P := fun clock (e : Engine) => e.Punctual clock)
      (C := fun _ op => op.Dated) (fun _ _ _ hle h => h.mono hle)
      (fun _ _ (op : Operation) h hop (hclock : _ ≤ op.time) => punctual_perform h hclock hop)
      hstart
      (always_of_forall (fun op hop _ => hdated op (List.mem_append_left _ hop)) _) hoperations
      (fun op hop => ⟨(hdated op (List.mem_append_left _ hop)).1.1, ?_⟩) hnow.1.1
    exact hcross op hop _ List.mem_cons_self
  have hafter : ((run perform (Engine.init policy) operations).perform (.advance now)).Punctual now :=
    punctual_perform hbefore le_rfl hnow
  exact hafter

/-! ### Open requests -/

/-- What a request promises: its drain is still evacuating under the generation it
carries, the obligation still has to be moved and has the revision it names, and the
stream of the release evidence ends right before the sequence it reserves. -/
structure World.Open (w : World) (q : EvacuationRequest) (r : DrainRecord) (o : Obligation) :
    Prop where
  drain : w.drain q.drain = some r
  holding : isFenceHoldingState r.phase = true
  generation : q.generation = r.generation
  outstanding : o ∈ w.outstandingFor r.target
  obligation : o.id = q.obligation
  moving : isMoving o = true
  revision : o.revision = q.expectedRevision
  reserved : q.evidenceSeq =
    (incrementChecked (w.evidence.highWater (releaseKey r q.obligation))).getD 0

/-- A request is open after its own turn. -/
theorem open_of_turn {id : DrainId} (hq : q ∈ (e.turn id now).2) :
    q.drain = id ∧ ∃ r o, (e.turn id now).1.Open q r o := by
  obtain ⟨r, r₁, hr, hresumed, hphase, hask, hworld, hlist⟩ := turn_asking hq
  rw [hlist] at hq
  obtain ⟨o, ho, rfl⟩ := List.mem_map.mp hq
  obtain ⟨hout, hmoving⟩ := List.mem_filter.mp ho
  have hid : r₁.id = id := by
    rw [← id_of_drain hr]
    rcases hresumed with rfl | rfl <;> rfl
  refine ⟨hid, r₁.noteEvacuationAttempt now, o, ?_⟩
  rw [hworld]
  refine ⟨?_, ?_, rfl, hout, rfl, hmoving, rfl, rfl⟩
  · rw [drain_withDrain]
    exact if_pos rfl
  · have hstate : (r₁.noteEvacuationAttempt now).phase = .evacuating :=
      DrainRecord.phase_of_state (r := r₁.noteEvacuationAttempt now) hask.state (by decide)
    rw [hstate]
    rfl

/-- Every request of a pass is open after it: the turns that follow belong to other
drains, and they retire only what was released. -/
theorem open_of_request (hq : q ∈ (e.advance now).2.evacuations) :
    ∃ r o, (e.advance now).1.Open q r o := by
  obtain ⟨pre, id, post, hsplit, hissued⟩ := mem_advance_evacuations hq
  obtain ⟨rfl, r, o, hopen⟩ := open_of_turn hissued
  have hothers : ∀ ev ∈ post, ∃ other, other ≠ q.drain ∧ ev = .turn other now := fun ev hev =>
    passTurns_split hsplit ev (List.mem_append_right _ hev)
  obtain ⟨drains, rfl⟩ : ∃ drains : List DrainId,
      post = drains.map (fun drain => .turn drain now) := by
    obtain ⟨-, tail, -, -, htail⟩ := List.map_eq_append_iff.mp hsplit
    obtain ⟨-, drains, -, -, hdrains⟩ := List.map_eq_cons_iff.mp htail
    exact ⟨drains, hdrains.symm⟩
  refine ⟨r, o, ?_⟩
  rw [advance_eq_run, hsplit, run_append, run_cons]
  have hturn : fire (run fire e pre) (.turn q.drain now) = ((run fire e pre).turn q.drain now).1 :=
    rfl
  rw [hturn]
  generalize ((run fire e pre).turn q.drain now).1 = s at hopen ⊢
  refine { hopen with drain := ?_, outstanding := ?_, reserved := ?_ }
  · rw [(run_others hothers s).1]
    exact hopen.drain
  · exact outstandingFor_turns_of_moving now drains hopen.outstanding hopen.moving
  · have hkey : (releaseKey r q.obligation).drain = q.drain := id_of_drain hopen.drain
    rw [(run_others hothers s).2.2.2 _ hkey]
    exact hopen.reserved

/-! ### Answers -/

/-- The engine after the evidence was recorded and the release was reported. -/
def Engine.answer (e : Engine) (draft : Evidence) (report : ObligationReport) (now : TimePoint) :
    Engine :=
  ((e.recordEvidence draft now).1.reportObligation report now).1

/-- The drain of the request finds the obligation ready to be retired; its blockers, if
any, come from other obligations. -/
structure World.Proved (w : World) (q : EvacuationRequest) (r : DrainRecord) (now : TimePoint) :
    Prop where
  drain : w.drain q.drain = some r
  retirable : q.obligation ∈ w.retirable r now
  unblocked : ∃ o, w.obligations.find q.obligation = some o ∧
    w.quiescenceBlocker r now o = none
  blockers : ∀ blocker ∈ w.evaluateQuiescence r now, ∃ o ∈ w.outstandingFor r.target,
    o.id ≠ q.obligation ∧ w.quiescenceBlocker r now o = some blocker

/-- A released obligation with a proof is ready. -/
theorem proved_of_released {w : World} {r : DrainRecord} {o : Obligation}
    (hr : w.drain q.drain = some r) (ho : o ∈ w.outstandingFor r.target)
    (hid : o.id = q.obligation) (hs : o.state = .released)
    (hproof : w.releaseBlocker r now o = none) : w.Proved q r now := by
  obtain ⟨hfind, -⟩ := mem_outstandingFor.mp ho
  have hretirable : q.obligation ∈ w.retirable r now := by
    rw [← hid]
    refine List.mem_map_of_mem (List.mem_filter.mpr ⟨ho, ?_⟩)
    rw [isReleased, hs, hproof]
    rfl
  have hnone : w.quiescenceBlocker r now o = none := by
    rw [quiescenceBlocker, hs]
    exact hproof
  refine ⟨hr, hretirable, ⟨o, hid ▸ hfind, hnone⟩, fun blocker hblocker => ?_⟩
  -- There is something to retire, so only the obligations are looked at.
  have hretires : ¬ (w.retirable r now).isEmpty = true := by
    rw [List.isEmpty_iff]
    exact List.ne_nil_of_mem hretirable
  rw [evaluateQuiescence, if_pos (Or.inr hretires)] at hblocker
  obtain ⟨other, hother, hraised⟩ := List.mem_filterMap.mp hblocker
  refine ⟨other, hother, fun heq => ?_, hraised⟩
  obtain ⟨hfind', -⟩ := mem_outstandingFor.mp hother
  rw [heq, ← hid, hfind] at hfind'
  rw [← Option.some.inj hfind', hnone] at hraised
  cases hraised

/-- An open request can be answered: both calls succeed, and the release is proved. -/
theorem World.Open.answered {r : DrainRecord} {o : Obligation} (h : e.Open q r o)
    (hpunctual : e.Punctual now) (hmax : now ≤ i64Max) {draft : Evidence}
    {report : ObligationReport} (hdraft : e.Observes now q draft) (hreport : Releases q report)
    (hroom : e.evidence.records.size < e.evidence.maxRecords)
    (hnumber : e.evidence.highWater draft.key < u64Max) (hrevision : q.expectedRevision < u64Max) :
    (e.recordEvidence draft now).2 = .ok { draft with attested := true } ∧
      ((e.recordEvidence draft now).1.reportObligation report now).2 = .ok () ∧
      (e.answer draft report now).Proved q r now := by
  have hid : q.drain = r.id := (id_of_drain h.drain).symm
  have hkey : draft.key = releaseKey r q.obligation := by
    rw [hdraft.key, hid]
    rfl
  have hseq : q.evidenceSeq = e.evidence.highWater draft.key + 1 := by
    rw [h.reserved, ← hkey, incrementChecked_eq, if_pos hnumber]
    rfl
  have hskew := le_saturatingAdd hmax hpunctual.policy.evidenceClockSkew
  obtain ⟨hrecorded, hstored⟩ := recordEvidence_room hpunctual.coherent (hdraft.seq.trans hseq)
    hdraft.epoch hdraft.producer (hdraft.observedAt.trans_le hskew) hroom
  obtain ⟨hfind, hblocks, hdepends⟩ := mem_outstandingFor.mp h.outstanding
  have hdrain : (e.recordEvidence draft now).1.drain q.drain = some r := by
    rw [hrecorded]
    exact h.drain
  have hfind' : (e.recordEvidence draft now).1.obligations.find q.obligation = some o := by
    rw [hrecorded, ← h.obligation]
    exact hfind
  obtain ⟨hreported, hreleased⟩ := reportObligation_released hreport hdrain h.generation hfind'
    h.moving h.revision (h.revision.trans_lt hrevision) now
  refine ⟨hstored, hreleased, ?_⟩
  rw [hrecorded] at hreported
  have hworld : (e.answer draft report now).toWorld =
      (e.toWorld.withEvidence (e.evidence.filed { draft with attested := true })).withObligations
        (e.obligations.store (releasedBy report now o)) := hreported
  rw [hworld]
  have hstore : (e.obligations.store (releasedBy report now o)).find o.id =
      some (releasedBy report now o) := by
    rw [ObligationTable.find_store]
    exact if_pos rfl
  refine proved_of_released (o := releasedBy report now o) h.drain ?_ h.obligation rfl ?_
  · refine mem_outstandingFor.mpr ⟨hstore, ?_, hdepends⟩
    refine Obligation.blocksCompletion_iff.mpr
      ⟨(Obligation.blocksCompletion_iff.mp hblocks).1, fun heq => ?_⟩
    cases (show ObligationState.released = .retired from heq)
  · have hproves : (((e.toWorld.withEvidence
        (e.evidence.filed { draft with attested := true })).withObligations
          (e.obligations.store (releasedBy report now o))).Proves now r o.id report.evidence) := by
      refine ⟨?_, { draft with attested := true }, ?_, rfl, hdraft.epoch,
        hdraft.generation.trans h.generation, hdraft.observedAt⟩
      · rw [hreport.evidence, hseq]
        exact Nat.succ_ne_zero _
      · show (e.evidence.filed _).find _ _ = _
        rw [EvidenceLedger.find_filed, hreport.evidence, h.obligation, ← hkey, ← hdraft.seq]
        exact if_pos ⟨rfl, rfl⟩
    have hclosed := (hpunctual.closed q.drain r h.drain h.holding).2
    refine Proves.unblocks (o := releasedBy report now o) hproves hpunctual.policy hclosed le_rfl
      hmax ?_
    exact Int.le_add_of_nonneg_right hpunctual.policy.evidenceFreshness.le

/-- At ordered times, with no snapshot restored before time zero and under a valid
policy: a request that a pass issues can be answered by the next two calls, as long as the
ledger has room and no number is used up. Both calls succeed, and evaluating the
quiescence of the drain finds the obligation ready to be retired and raises no blocker
for it. -/
theorem requests_answerable {policy : DrainPolicy} (hvalid : policy.validate = .ok ())
    {operations : List Operation} {now : TimePoint}
    (hordered : (operations ++ [Operation.advance now]).Pairwise (fun a b => a.time ≤ b.time))
    (hdated : ∀ op ∈ operations ++ [.advance now], op.Dated) {e : Engine}
    (he : e = ((run perform (Engine.init policy) operations).advance now).1)
    {q : EvacuationRequest}
    (hq : q ∈ ((run perform (Engine.init policy) operations).advance now).2.evacuations)
    {draft : Evidence} {report : ObligationReport} (hdraft : e.Observes now q draft)
    (hreport : Releases q report) (hroom : e.evidence.records.size < e.evidence.maxRecords)
    (hnumber : e.evidence.highWater draft.key < u64Max) (hrevision : q.expectedRevision < u64Max) :
    (e.recordEvidence draft now).2 = .ok { draft with attested := true } ∧
      ((e.recordEvidence draft now).1.reportObligation report now).2 = .ok () ∧
      ∃ r, (e.answer draft report now).Proved q r now := by
  obtain ⟨r, o, hopen⟩ := open_of_request hq
  rw [← he] at hopen
  have hnow := hdated (.advance now) (List.mem_append_right _ List.mem_cons_self)
  obtain ⟨hrecorded, hreported, hproved⟩ := hopen.answered
    (he.symm ▸ punctual_run hvalid hordered hdated) hnow.1.2 hdraft hreport hroom hnumber hrevision
  exact ⟨hrecorded, hreported, r, hproved⟩

namespace OnePort

/-- The pass after the restart. -/
def askedAgain (now : TimePoint) : Engine × PendingActions :=
  (run perform (Engine.init {}) (restartedEvacuating now)).advance now

/-- Evidence that the flow was released. -/
def evidenceOf (w : World) (now : TimePoint) (q : EvacuationRequest) : Evidence where
  seq := q.evidenceSeq
  key := { kind := .obligationReleased, drain := q.drain, obligation := q.obligation }
  generation := q.generation
  epoch := w.authority.epoch
  producer := w.authority.incarnation
  observedAt := now

def releaseOf (q : EvacuationRequest) : ObligationReport where
  obligation := q.obligation
  expectedRevision := q.expectedRevision
  next := .released
  evidence := q.evidenceSeq
  drain := q.drain
  generation := q.generation

/-- The engine after the flow was answered for. -/
def flowAnswered (now : TimePoint) (q : EvacuationRequest) : Engine :=
  (askedAgain now).1.answer (evidenceOf (askedAgain now).1.toWorld now q) (releaseOf q) now

theorem observes_evidenceOf (w : World) (now : TimePoint) (q : EvacuationRequest) :
    w.Observes now q (evidenceOf w now q) :=
  ⟨rfl, rfl, rfl, rfl, rfl, rfl⟩

theorem releases_releaseOf (q : EvacuationRequest) : Releases q (releaseOf q) :=
  ⟨rfl, rfl, rfl, rfl, rfl, rfl⟩

end OnePort

/-- The flow is asked for after a restart at time one, and the answer proves its release. -/
theorem requests_answerable_restarted :
    ∃ q ∈ (OnePort.askedAgain 1).2.evacuations, ∃ r, (OnePort.flowAnswered 1 q).Proved q r 1 := by
  have hfacts : ((OnePort.askedAgain 1).2.evacuations ≠ [] ∧
      (OnePort.askedAgain 1).1.evidence.records.size <
        (OnePort.askedAgain 1).1.evidence.maxRecords) ∧
      ∀ q ∈ (OnePort.askedAgain 1).2.evacuations,
        (OnePort.askedAgain 1).1.evidence.highWater
            { kind := .obligationReleased, drain := q.drain, obligation := q.obligation } < u64Max ∧
          q.expectedRevision < u64Max := by
    decide +kernel
  obtain ⟨⟨hsome, hroom⟩, hcounters⟩ := hfacts
  obtain ⟨q, hq⟩ := List.exists_mem_of_ne_nil _ hsome
  obtain ⟨-, -, hproved⟩ := @requests_answerable {} (by decide) (OnePort.restartedEvacuating 1) 1
    (by decide) (by decide) (OnePort.askedAgain 1).1 rfl q hq _
    (OnePort.releaseOf q) (OnePort.observes_evidenceOf _ 1 q) (OnePort.releases_releaseOf q)
    hroom (hcounters q hq).1 (hcounters q hq).2
  exact ⟨q, hq, hproved⟩

/-- Before time zero the restored drain says that admission was closed at zero, so the
answer proves nothing: its evidence is older than the closure. -/
theorem request_unanswerable_restored :
    DrainPolicy.validate {} = .ok () ∧
    (OnePort.restartedEvacuating (-1) ++ [Operation.advance (-1)]).Pairwise
      (fun a b => a.time ≤ b.time) ∧
    ∃ q ∈ (OnePort.askedAgain (-1)).2.evacuations,
      (OnePort.askedAgain (-1)).1.Observes (-1) q
        (OnePort.evidenceOf (OnePort.askedAgain (-1)).1.toWorld (-1) q) ∧
      Releases q (OnePort.releaseOf q) ∧
      (OnePort.askedAgain (-1)).1.evidence.records.size <
        (OnePort.askedAgain (-1)).1.evidence.maxRecords ∧
      (OnePort.askedAgain (-1)).1.evidence.highWater
        { kind := .obligationReleased, drain := q.drain, obligation := q.obligation } < u64Max ∧
      q.expectedRevision < u64Max ∧ ¬ ∃ r, (OnePort.flowAnswered (-1) q).Proved q r (-1) := by
  have hfacts : ∃ q ∈ (OnePort.askedAgain (-1)).2.evacuations,
      ((OnePort.askedAgain (-1)).1.evidence.records.size <
        (OnePort.askedAgain (-1)).1.evidence.maxRecords ∧
      (OnePort.askedAgain (-1)).1.evidence.highWater
        { kind := .obligationReleased, drain := q.drain, obligation := q.obligation } < u64Max ∧
      q.expectedRevision < u64Max) ∧
      (OnePort.flowAnswered (-1) q).drains.toList.all (fun r =>
        ¬ q.obligation ∈ (OnePort.flowAnswered (-1) q).retirable r (-1)) = true := by
    decide +kernel
  obtain ⟨q, hq, ⟨hroom, hnumber, hrevision⟩, hnever⟩ := hfacts
  refine ⟨by decide, by decide, q, hq, OnePort.observes_evidenceOf _ (-1) q,
    OnePort.releases_releaseOf q, hroom, hnumber, hrevision, ?_⟩
  rintro ⟨r, hproved⟩
  have hmem := Table.mem_of_find? hproved.drain
  have hnot := List.all_eq_true.mp hnever r hmem
  exact of_decide_eq_true hnot hproved.retirable

end DrainFabric
