import DrainFabric.Properties.Release

/-!
# Stale reports

A report answers an evacuation request: it carries the drain, the generation and the
obligation revision of the request. The generation is compared with the one the drain
closed admission under, which neither cancellation nor restoration nor a restart
changes. So once a request is issued the generation never fences its answers again,
and only the revision of the obligation can.

* `answer_rejected_iff` — when a report that answers a request is rejected;
* `answer_rejected_fails` — answers that are applied after a cancellation, after a
  restoration and after a restart.
-/

namespace DrainFabric

open Lib World Engine

/-- The report answers the request. -/
def ObligationReport.Answers (report : ObligationReport) (request : EvacuationRequest) : Prop :=
  report.obligation = request.obligation ∧ report.drain = request.drain ∧
    report.generation = request.generation ∧ report.expectedRevision = request.expectedRevision

/-- The report is rejected and changes no obligation. -/
def Engine.Rejects (e : Engine) (report : ObligationReport) (now : TimePoint) : Prop :=
  (∃ err, (e.reportObligation report now).2 = .error err) ∧
    (e.reportObligation report now).1.obligations = e.obligations

/-- The obligation cannot take the reported state: the move is illegal, or it needs a
revision and none is left. -/
def Obligation.Stuck (o : Obligation) (next : ObligationState) (evidence : EvidenceSeq) : Prop :=
  next ≠ o.state ∧ (isLegalObligationTransition o.state next = false ∨ o.revision = u64Max) ∨
    next = o.state ∧ evidence ≠ 0 ∧ evidence ≠ o.releaseEvidence ∧
      (o.state = .quiescing ∨ o.state = .released ∨ o.state = .retired) ∧ o.revision = u64Max

/-- Something stands against the report: the obligation or the drain is not known, the
generation is neither that of the drain nor that of its restoration, the revision is
another one, or the obligation is stuck. -/
def World.Refuses (w : World) (report : ObligationReport) : Prop :=
  ∀ o, w.obligations.find report.obligation = some o →
    (∃ err, reportFence w report = .error err) ∨ o.revision ≠ report.expectedRevision ∨
      o.Stuck report.next report.evidence

/-! ### One report -/

theorem applyState_error_iff (o : Obligation) (expected : Revision) (next : ObligationState)
    (evidence : EvidenceSeq) (now : TimePoint) :
    (∃ err, o.applyState expected next evidence now = .error err) ↔
      o.revision ≠ expected ∨ o.Stuck next evidence := by
  have hfail : ∀ (code : ErrorCode) (message : String),
      ∃ err, (fail code message : Result Obligation) = .error err := fun _ _ => ⟨_, rfl⟩
  unfold Obligation.applyState Obligation.Stuck
  by_cases hrev : expected = o.revision
  · rw [if_neg (not_not.mpr hrev)]
    by_cases hsame : next = o.state
    · rw [if_pos hsame]
      split_ifs with hold hkeeps hmax
      · refine iff_of_false (by simp) ?_
        rintro (h | ⟨h, -⟩ | ⟨-, hzero, hnew, -⟩)
        · exact h hrev.symm
        · exact h hsame
        · exact hold.elim hzero hnew
      · refine iff_of_true (hfail _ _) (Or.inr (Or.inr ⟨hsame, not_or.mp hold |>.1,
          not_or.mp hold |>.2, ?_, hmax⟩))
        cases hstate : o.state <;> simp [hstate] at hkeeps ⊢
      · refine iff_of_false (by simp) ?_
        rintro (h | ⟨h, -⟩ | ⟨-, -, -, -, h⟩)
        · exact h hrev.symm
        · exact h hsame
        · exact hmax h
      · refine iff_of_false (by simp) ?_
        rintro (h | ⟨h, -⟩ | ⟨-, -, -, h, -⟩)
        · exact h hrev.symm
        · exact h hsame
        · rcases h with h | h | h <;> simp [h] at hkeeps
    · rw [if_neg hsame]
      split_ifs with hlegal hmax
      · exact iff_of_true (hfail _ _) (Or.inr (Or.inl ⟨hsame, Or.inr hmax⟩))
      · refine iff_of_false ?_ ?_
        · cases next <;> simp
        · rintro (h | ⟨-, h | h⟩ | ⟨h, -⟩)
          · exact h hrev.symm
          · rw [hlegal] at h
            cases h
          · exact hmax h
          · exact hsame h
      · exact iff_of_true (hfail _ _)
          (Or.inr (Or.inl ⟨hsame, Or.inl (Bool.not_eq_true _ ▸ hlegal)⟩))
  · rw [if_pos hrev]
    exact iff_of_true (hfail _ _) (Or.inl (Ne.symm hrev))

theorem rejects_iff (e : Engine) (report : ObligationReport) (now : TimePoint) :
    e.Rejects report now ↔ e.Refuses report := by
  have happly := fun o : Obligation =>
    applyState_error_iff o report.expectedRevision report.next report.evidence now
  unfold Rejects Refuses reportObligation
  cases hfind : e.obligations.find report.obligation with
  | none => exact iff_of_true ⟨⟨_, rfl⟩, rfl⟩ (fun o ho => by cases ho)
  | some o =>
    cases hfence : reportFence e.toWorld report with
    | error err => exact iff_of_true ⟨⟨err, rfl⟩, rfl⟩ (fun _ _ => Or.inl ⟨err, rfl⟩)
    | ok u =>
      cases happlied : o.applyState report.expectedRevision report.next report.evidence now with
      | error err =>
        refine iff_of_true ?_ (fun o' ho' => Or.inr ?_)
        · simp only [happlied]
          exact ⟨⟨err, rfl⟩, trivial⟩
        · obtain rfl := Option.some.inj ho'
          exact (happly o).mp ⟨err, happlied⟩
      | ok applied =>
        refine iff_of_false ?_ (fun h => ?_)
        · simp only [happlied]
          rintro ⟨⟨err, herr⟩, -⟩
          cases herr
        · rcases h o rfl with ⟨err, herr⟩ | h
          · cases herr
          · obtain ⟨err, herr⟩ := (happly o).mpr h
            cases happlied.symm.trans herr

/-! ### The generation of the drain -/

/-- The drain has closed admission, under the generation. -/
def World.Generated (w : World) (id : DrainId) (generation : Generation) : Prop :=
  ∃ r, w.drain id = some r ∧ r.generation = generation ∧
    ¬ (r.phase = .requested ∨ r.phase = .validating)

/-- A drain never goes back in front of its closure, and keeps its generation. -/
theorem generated_fire (e : Engine) (ev : Event) {id : DrainId} {generation : Generation}
    (h : e.Generated id generation) : (e.fire ev).Generated id generation := by
  obtain ⟨r, hr, hgen, hphase⟩ := h
  obtain ⟨r', hr'⟩ := (fire_drainStep e ev).persists hr
  have hfate := (fire_drainStep e ev).fate hr'
  refine ⟨r', hr', (hfate.generation hr (fun hp => hphase (Or.inr hp))).trans hgen, fun hp => ?_⟩
  have hsame : ∀ {q : DrainRecord}, e.drain id = some q → q = r := fun hq =>
    Option.some.inj (hq.symm.trans hr)
  cases hfate with
  | born hnone => cases hnone.symm.trans hr
  | keeps hq kept =>
    obtain rfl := hsame hq
    exact hphase (kept.phase ▸ hp)
  | moves hq _ hpath =>
    obtain rfl := hsame hq
    exact hphase (Or.inl (hpath.start hp))
  | closes hq _ hvalidating =>
    obtain rfl := hsame hq
    exact hphase (Or.inr hvalidating)
  | retries hq _ hvalidating =>
    obtain rfl := hsame hq
    exact hphase (Or.inr hvalidating)
  | settles _ _ _ hs | cancels _ _ _ _ hs | reopens _ _ _ _ hs =>
    simp [DrainRecord.phase_of_state hs] at hp
  | refused hq =>
    obtain rfl := hsame hq
    exact hphase hp

theorem reportFence_of_generated {w : World} {report : ObligationReport}
    (h : w.Generated report.drain report.generation) : reportFence w report = .ok () := by
  obtain ⟨r, hr, hgen, -⟩ := h
  simp [reportFence, hr, hgen]

/-- When a report that answers a request is rejected. In any state, it is when
something stands against it. In every state that the engine reaches from the pass
that issued the request, whether the drain was cancelled or restored or the engine
was restarted in between, that can only be the revision of the obligation, or an
obligation that cannot take the reported state. -/
theorem answer_rejected_iff {e : Engine} {pass : TimePoint} {request : EvacuationRequest}
    (hissued : request ∈ (e.advance pass).2.evacuations) {report : ObligationReport}
    (hanswers : report.Answers request) (now : TimePoint) :
    (∀ e' : Engine, e'.Rejects report now ↔ e'.Refuses report) ∧
    ∀ events, (run fire (e.advance pass).1 events).Rejects report now ↔
      ∃ o, (run fire (e.advance pass).1 events).obligations.find request.obligation = some o ∧
        (o.revision ≠ request.expectedRevision ∨ o.Stuck report.next report.evidence) := by
  refine ⟨fun e' => rejects_iff e' report now, fun events => ?_⟩
  obtain ⟨hobligation, hdrain, hgeneration, hrevision⟩ := hanswers
  obtain ⟨pre, id, post, hturns, hq⟩ := mem_advance_evacuations hissued
  have hrun : run fire (e.advance pass).1 events =
      run fire ((run fire e pre).turn id pass).1 (post ++ events) := by
    rw [advance_eq_run, hturns, run_append, run_cons, run_append]
    rfl
  obtain ⟨r, r', o, -, hphase, hr', hold, ho, hid, hgen, hobligation'⟩ := mem_turn_requests hq
  have hgenerated : ((run fire e pre).turn id pass).1.Generated request.drain request.generation :=
    ⟨r', by rw [hid]; exact hr', by rw [hold.generation, hgen], by simp [hold.phase, hphase]⟩
  -- Both the drain and the obligation are there for good.
  have hend : (run fire (e.advance pass).1 events).Generated report.drain report.generation := by
    rw [hrun, hdrain, hgeneration]
    exact run_invariant
      (P := fun e : Engine => e.Generated request.drain request.generation)
      (C := fun _ _ => True) (fun e ev h _ => generated_fire e ev h) hgenerated
      (always_of_forall (fun _ _ _ => trivial) _)
  obtain ⟨o', ho', -⟩ := obligation_run ho (post ++ events)
  rw [← hrun, ← hobligation'] at ho'
  rw [rejects_iff, Refuses, reportFence_of_generated hend, hobligation, hrevision]
  constructor
  · intro h
    rcases h o' ho' with ⟨err, herr⟩ | h
    · cases herr
    · exact ⟨o', ho', h⟩
  · rintro ⟨o₁, ho₁, h⟩ o₂ ho₂
    obtain rfl := Option.some.inj (ho₁.symm.trans ho₂)
    exact Or.inr h

/-- The port with a protected flow, right before the pass that asks to move it. -/
def OnePort.evacuatingFlow : Engine :=
  run perform (Engine.init {}) ((OnePort.setup 1).map .call ++
    [.call (OnePort.admitFlow 1), .advance 1, .advance 1, .advance 1])

/-- The flow is reported as released, in answer to the request. -/
def OnePort.answer : ObligationReport :=
  { obligation := 1, expectedRevision := 1, next := .released, evidence := 1, drain := 1
    generation := 1 }

/-- The answer is rejected when it comes a second time. -/
theorem answer_rejected_iff_onePort :
    (run fire (OnePort.evacuatingFlow.advance 1).1
      [.call (.reportObligation OnePort.answer 1)]).Rejects OnePort.answer 1 := by
  have hissued : (OnePort.evacuatingFlow.advance 1).2.evacuations.any (fun request =>
      request.obligation = 1 ∧ request.drain = 1 ∧ request.generation = 1 ∧
        request.expectedRevision = 1) = true := by
    decide +kernel
  have hmoved : ((run fire (OnePort.evacuatingFlow.advance 1).1
      [.call (.reportObligation OnePort.answer 1)]).obligations.find 1).any
      (fun o => o.revision ≠ 1) = true := by
    decide +kernel
  simp only [List.any_eq_true, Option.any_eq_true, decide_eq_true_eq] at hissued hmoved
  obtain ⟨request, hmem, hobligation, hdrain, hgeneration, hrevision⟩ := hissued
  obtain ⟨o, ho, hne⟩ := hmoved
  have hanswers : OnePort.answer.Answers request :=
    ⟨hobligation.symm, hdrain.symm, hgeneration.symm, hrevision.symm⟩
  refine ((answer_rejected_iff hmem hanswers 1).2 _).mpr ⟨o, ?_, Or.inl (by rwa [hrevision])⟩
  rwa [hobligation]

/-- What happens to the flow when the answer arrives after the events: the state it is
in, and the state it moves to. -/
def OnePort.answeredAfter (events : List Event) : Option ObligationState × Option ObligationState :=
  let e := run fire (OnePort.evacuatingFlow.advance 1).1 events
  ((e.obligations.find 1).map Obligation.state,
    ((e.reportObligation OnePort.answer 1).1.obligations.find 1).map Obligation.state)

/-- The answer is applied although the drain was cancelled, or cancelled and restored,
or the engine restarted under a new authority line. -/
theorem answer_rejected_fails :
    (OnePort.evacuatingFlow.advance 1).2.evacuations.map (fun request =>
        (request.obligation, request.drain, request.generation, request.expectedRevision)) =
      [(1, 1, 1, 1)] ∧
    OnePort.answeredAfter [.call (.cancelDrain 1 1 "abort" 1)] = (some .admitted, some .released) ∧
    OnePort.answeredAfter [.call (.cancelDrain 1 1 "abort" 1),
      .call (.restoreDrain 1 1 "back" 1), .turn 1 1] = (some .admitted, some .released) ∧
    OnePort.answeredAfter [.restart 1 1, .call (.installAuthorityLine 2 2 1 "restart")] =
      (some .admitted, some .released) ∧
    ((run fire (OnePort.evacuatingFlow.advance 1).1
      [.call (.cancelDrain 1 1 "abort" 1)]).drain 1).map DrainRecord.state = some .cancelled ∧
    ((run fire (OnePort.evacuatingFlow.advance 1).1 [.call (.cancelDrain 1 1 "abort" 1),
      .call (.restoreDrain 1 1 "back" 1), .turn 1 1]).drain 1).map
      (fun r => (r.state, r.restoredAt)) = some (.cancelled, 1) ∧
    (run fire (OnePort.evacuatingFlow.advance 1).1
      [.restart 1 1, .call (.installAuthorityLine 2 2 1 "restart")]).authority.epoch = 2 := by
  decide +kernel

end DrainFabric
