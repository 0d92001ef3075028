import DrainFabric.Engine.Asking
import DrainFabric.Engine.Progress
import DrainFabric.Properties.EvacuationBudget
import DrainFabric.Properties.Passes

/-!
# What an exception does for a blocked drain

A drain that is blocked while it evacuates, because the grace of an obligation has expired
or because its attempts are used up, is taken out of `Blocked` by the next pass once it has
been granted exceptions that reach far enough. The pass asks for every obligation that
still has to be moved, once.

The turns of the drains before it in the pass may retire obligations, but none that still
has to be moved (`outstandingFor_turns_of_moving`).

The drain has to be able to move: a revision counter at its end keeps it where it is. Such
a state can be reached, because a drain may be blocked and resumed as often as the clock
of the passes goes back and forth (`flaps`).
-/

namespace DrainFabric

open Lib World Engine

variable {id : DrainId}

/-! ### Exceptions -/

namespace Engine

/-- A successful `grant_exception` for the drain. -/
def Grants (id : DrainId) (e e' : Engine) : Prop :=
  ∃ obligation extension authority now,
    e.grantException id obligation extension authority now = (e', .ok ())

/-- An exception for all obligations of the drain is granted while the budget lasts. -/
theorem grantException_of_room {e : Engine} {r : DrainRecord} {authority : AuthorityId}
    {now : TimePoint} {sequence : Nat} (hauth : e.requireAuthority authority now = .ok ())
    (extension : Duration) (hextension : 0 < extension) (hr : e.drain id = some r)
    (hset : isSettled r.state = false)
    (hroom : (e.grants id).length < e.policy.maxExceptionExtensions)
    (hsequence : incrementChecked32 e.exceptionHighWater = some sequence) :
    ∃ e', e.grantException id 0 extension authority now = (e', .ok ()) ∧
      e'.toWorld = (e.toWorld.withGrant
        { drain := id, obligation := 0, extension, authority, grantedAt := now,
          sequence }).withDrain r.resetEvacuationAttempts := by
  have hok : (e.grantException id 0 extension authority now).2 = .ok () := by
    have hbudget : ¬ ((OrdMap.get? e.exceptions id).getD []).length ≥
        e.policy.maxExceptionExtensions := not_le.mpr hroom
    simp only [grantException, hauth, if_neg (not_le.mpr hextension), hr, hset, hbudget,
      hsequence]
    rfl
  refine ⟨(e.grantException id 0 extension authority now).1, Prod.ext rfl hok, ?_⟩
  rcases grantException_cases e id 0 extension authority now with
    ⟨-, hfailed⟩ | ⟨q, hq, -, ⟨-, hfailed⟩ | ⟨sequence', -, -, hsequence', hworld⟩⟩
  · rw [hok] at hfailed
    cases hfailed
  · rw [hok] at hfailed
    cases hfailed
  · obtain rfl := Option.some.inj (hr.symm.trans hq)
    obtain rfl := Option.some.inj (hsequence.symm.trans hsequence')
    exact hworld.toWorld

/-- What successful exceptions leave of the drain, and what they leave alone. -/
theorem grants_spec {e e' : Engine} (h : Relation.TransGen (Grants id) e e') {r : DrainRecord}
    (hr : e.drain id = some r) :
    e'.drain id = some r.resetEvacuationAttempts ∧ e'.obligations = e.obligations ∧
      e'.policy = e.policy := by
  have hone : ∀ {e e' : Engine} {r : DrainRecord}, Grants id e e' → e.drain id = some r →
      e'.drain id = some r.resetEvacuationAttempts ∧ e'.obligations = e.obligations ∧
        e'.policy = e.policy := by
    rintro e e' r ⟨obligation, extension, authority, now, hok⟩ hr
    rcases grantException_cases e id obligation extension authority now with
      ⟨-, hfailed⟩ | ⟨q, hq, -, ⟨-, hfailed⟩ | ⟨sequence, -, -, -, hworld⟩⟩
    · rw [hok] at hfailed
      cases hfailed
    · rw [hok] at hfailed
      cases hfailed
    · obtain rfl := Option.some.inj (hr.symm.trans hq)
      obtain rfl := id_of_drain hr
      rw [hok] at hworld
      rw [hworld.toWorld]
      refine ⟨?_, rfl, rfl⟩
      rw [drain_withDrain]
      exact if_pos rfl
  induction h with
  | single hgrant => exact hone hgrant hr
  | tail _ hgrant ih =>
    obtain ⟨hdrain, hobligations, hpolicy⟩ := hone hgrant ih.1
    exact ⟨hdrain, hobligations.trans ih.2.1, hpolicy.trans ih.2.2⟩

/-- The exceptions of a drain are those it had before the turns. -/
theorem grants_turns (e : Engine) (now : TimePoint) (drains : List DrainId) (id : DrainId) :
    (run fire e (drains.map (fun drain => .turn drain now))).grants id = e.grants id := by
  induction drains generalizing e with
  | nil => rfl
  | cons drain rest ih =>
    refine (ih _).trans ?_
    exact grants_writes (turn_writes e drain now) id (fun _ _ _ _ heq => by cases heq)

/-! ### The requests of one drain in a pass -/

theorem filter_requests_of_ne {e : Engine} {now : TimePoint} {drain : DrainId} (hne : drain ≠ id) :
    (e.turn drain now).2.filter (fun q => q.drain = id) = [] := by
  refine List.filter_eq_nil_iff.mpr (fun q hq => ?_)
  obtain ⟨-, -, -, -, -, -, -, -, hdrain, -⟩ := mem_turn_requests hq
  simpa [hdrain] using hne

theorem filter_foldl_passStep {now : TimePoint} {ids : List DrainId} (hids : id ∉ ids)
    (acc : Engine × PendingActions) :
    (ids.foldl (passStep now) acc).2.evacuations.filter (fun q => q.drain = id) =
      acc.2.evacuations.filter (fun q => q.drain = id) := by
  induction ids generalizing acc with
  | nil => rfl
  | cons drain rest ih =>
    rw [List.mem_cons, not_or] at hids
    rw [List.foldl_cons, ih hids.2]
    show (acc.2.evacuations ++ (acc.1.turn drain now).2).filter _ = _
    rw [List.filter_append, filter_requests_of_ne (Ne.symm hids.1), List.append_nil]

/-- The requests a pass issues on behalf of a drain are those of its turn. -/
theorem filter_advance {e : Engine} {now : TimePoint} {pre post : List DrainId}
    (hkeys : e.drains.keys = pre ++ id :: post) :
    (e.advance now).2.evacuations.filter (fun q => q.drain = id) =
      ((run fire e (pre.map (fun drain => .turn drain now))).turn id now).2 := by
  obtain ⟨hfirst, hlast⟩ := not_or.mp (List.mem_append.not.mp (Table.notMem_of_keys_split hkeys))
  rw [advance, hkeys, List.foldl_append, List.foldl_cons, filter_foldl_passStep hlast]
  rw [← foldl_passStep_fst now pre (e, {})]
  generalize hacc : pre.foldl (passStep now) (e, {}) = acc
  have hnone : acc.2.evacuations.filter (fun q => q.drain = id) = [] := by
    rw [← hacc, filter_foldl_passStep hfirst]
    rfl
  show (acc.2.evacuations ++ (acc.1.turn id now).2).filter _ = _
  rw [List.filter_append, hnone, List.nil_append]
  refine List.filter_eq_self.mpr (fun q hq => ?_)
  obtain ⟨-, -, -, -, -, -, -, -, hdrain, -⟩ := mem_turn_requests hq
  simpa using hdrain

/-- The turn of a drain in a pass, and the turns before it. -/
theorem exists_turn {e : Engine} {r : DrainRecord} (hr : e.drain id = some r) (now : TimePoint) :
    ∃ pre post, e.drains.keys = pre ++ id :: post ∧
      e.passTurns now = pre.map (fun drain => .turn drain now) ++
        .turn id now :: post.map (fun drain => .turn drain now) ∧
      (run fire e (pre.map (fun drain => .turn drain now))).drain id = some r ∧
      (run fire e (pre.map (fun drain => .turn drain now))).policy = e.policy := by
  obtain ⟨pre, post, hkeys⟩ := List.append_of_mem (Table.mem_keys_iff.mpr ⟨r, hr⟩)
  have hpass : e.passTurns now = pre.map (fun drain => .turn drain now) ++
      .turn id now :: post.map (fun drain => .turn drain now) := by
    rw [passTurns, hkeys, List.map_append, List.map_cons]
  obtain ⟨hdrain, hpolicy, -⟩ := run_others (fun ev hev => passTurns_split hpass ev
    (List.mem_append_left _ hev)) e
  exact ⟨pre, post, hkeys, hpass, hdrain.trans hr, hpolicy⟩

/-! ### The turn of the drain -/

/-- A failed obligation blocks the evacuation. -/
theorem failed_blocks {w : World} (r : DrainRecord) (now : TimePoint) {o : Obligation}
    (ho : o ∈ w.outstandingFor r.target) (hfailed : o.state = .failed) :
    ∃ blocker ∈ w.evaluateState r .evacuating now, blocker.code = .obligationFailed := by
  refine ⟨makeBlocker .obligationFailed o.label
    "the adjacent runtime reported that evacuation failed" now, ?_, rfl⟩
  refine List.mem_append_left _ (List.mem_filterMap.mpr ⟨o, ho, ?_⟩)
  exact if_pos hfailed

theorem graceDeadlineFor_congr {w w' : World} {r r' : DrainRecord}
    (hgrants : w'.grants r'.id = w.grants r.id) (hpolicy : w'.policy = w.policy) (o : Obligation) :
    w'.graceDeadlineFor r' o = w.graceDeadlineFor r o := by
  have hlist : (OrdMap.get? w'.exceptions r'.id).getD [] =
      (OrdMap.get? w.exceptions r.id).getD [] := hgrants
  rw [graceDeadlineFor, graceDeadlineFor, hlist, hpolicy]

section Turn

variable {e : Engine} {r : DrainRecord} {now : TimePoint}

/-- A drain that was blocked while it evacuated and that nothing blocks any more goes on
with its evacuation. -/
theorem turn_of_cleared (hd : e.drain r.id = some r) (hb : r.state = .blocked)
    (hphase : r.phase = .evacuating) (hrev : r.revision ≠ u64Max)
    (hclear : e.evaluateEvacuation r now = []) :
    ∃ e₁ : Engine, e.turn r.id now =
        e₁.stepEvacuating (r.moved .evacuating now "blockers cleared") now ∧
      e₁.toWorld = e.toWorld.withDrain (r.moved .evacuating now "blockers cleared") ∧
      e₁.evaluateEvacuation (r.moved .evacuating now "blockers cleared") now = [] := by
  have hledger : e.revalidationLedger r now = e.evidence :=
    revalidationLedger_of_ne (by rw [hphase]; decide)
  have hcleared : (e.toWorld.withEvidence (e.revalidationLedger r now)).evaluateState r r.phase
      now = [] := by
    rw [hledger, hphase]
    exact hclear
  obtain ⟨e₁, hres, hworld⟩ := resumeBlocked_of_clear hd hb hrev (by rw [hphase]; rfl)
    (by rw [hphase]; decide) hcleared
  rw [hledger, hphase] at hworld
  rw [hphase] at hres
  refine ⟨e₁, turn_of_resumed hd hb hres, hworld, ?_⟩
  have hpeers : Peers r.id e.toWorld e₁.toWorld := by
    rw [hworld]
    exact peers_withDrain e.toWorld (r.moved .evacuating now "blockers cleared")
  have halike : r.Alike (r.moved .evacuating now "blockers cleared") :=
    r.alike_moved (by decide) now "blockers cleared"
  exact (evaluateState_congr hpeers halike .evacuating now).trans hclear

/-- If it has made no attempt, it asks for all that has to be moved. -/
theorem excused_turn (hd : e.drain r.id = some r) (hb : r.state = .blocked)
    (hphase : r.phase = .evacuating) (hrev : r.revision ≠ u64Max)
    (hfirst : r.evacuationRequests = 0) (hclear : e.evaluateEvacuation r now = []) :
    (e.turn r.id now).1.Unblocked r.id ∧
      (e.turn r.id now).2.map EvacuationRequest.obligation =
        ((e.outstandingFor r.target).filter isMoving).map Obligation.id := by
  obtain ⟨e₁, hturn, hworld, hclear₁⟩ := turn_of_cleared hd hb hphase hrev hclear
  have hd₁ : e₁.drain (r.moved .evacuating now "blockers cleared").id =
      some (r.moved .evacuating now "blockers cleared") := by
    rw [hworld, drain_withDrain, if_pos rfl]
  have hout : e₁.outstandingFor (r.moved .evacuating now "blockers cleared").target =
      e.outstandingFor r.target := by
    rw [hworld]
    rfl
  rw [hturn]
  refine ⟨(unblocked_stepEvacuating_iff hd₁ rfl).mpr (Or.inr fun _ => hclear₁), ?_⟩
  by_cases hmoving : (e.outstandingFor r.target).any isMoving = true
  · have hask : e₁.Asking (r.moved .evacuating now "blockers cleared") now :=
      ⟨rfl, by rwa [hout], hclear₁, Or.inl hfirst⟩
    have hlist : (e₁.stepEvacuating (r.moved .evacuating now "blockers cleared") now).2 =
        e₁.requestsFor (r.moved .evacuating now "blockers cleared") now :=
      (stepActive_of_asking hask).2
    rw [hlist, requestsFor, hout, List.map_map]
    rfl
  · have hnone : (e₁.stepEvacuating (r.moved .evacuating now "blockers cleared") now).2 = [] := by
      refine List.eq_nil_iff_forall_not_mem.mpr (fun q hq => hmoving ?_)
      rw [← hout]
      exact (asking_of_stepEvacuating rfl hq).moving
    have hstill : (e.outstandingFor r.target).filter isMoving = [] := by
      simpa using hmoving
    rw [hnone, hstill]
    rfl

end Turn

end Engine

/-- A drain that is blocked from `Evacuating`, for expired grace and used-up attempts only,
and that is granted exceptions which carry the grace of all that is outstanding to `now` or
later: the pass at `now` takes it out of `Blocked` and asks, on its behalf, exactly once
for every obligation that still has to be moved. -/
theorem exceptions_unblock {e e' : Engine} (hvalid : e.policy.validate = .ok ()) {id : DrainId}
    {r : DrainRecord} (hr : e.drain id = some r) (hb : r.state = .blocked)
    (hfrom : r.blockedFrom = some .evacuating) (hrev : r.revision ≠ u64Max) {now : TimePoint}
    (honly : ∀ blocker ∈ e.evaluateState r .evacuating now,
      blocker.code = .obligationGraceExpired ∨ blocker.code = .evacuationAttemptsExhausted)
    (hgrants : Relation.TransGen (Grants id) e e')
    (hcarried : ∀ o ∈ e'.outstandingFor r.target, now ≤ e'.graceDeadlineFor r o) :
    (e'.advance now).1.Unblocked id ∧
      (((e'.advance now).2.evacuations.filter (fun q => q.drain = id)).map
        EvacuationRequest.obligation).Nodup ∧
      ∀ obligation, obligation ∈ ((e'.advance now).2.evacuations.filter
          (fun q => q.drain = id)).map EvacuationRequest.obligation ↔
        ∃ o ∈ e'.outstandingFor r.target, isMoving o = true ∧ o.id = obligation := by
  obtain ⟨hr', hobligations, hpolicy⟩ := grants_spec hgrants hr
  obtain rfl := id_of_drain hr
  obtain ⟨pre, post, hkeys, hpass, hd₁, hpolicy₁⟩ := exists_turn hr' now
  generalize he₁ : run fire e' (pre.map (fun drain => .turn drain now)) = e₁ at hd₁ hpolicy₁
  -- Nothing that is outstanding has failed, or is past its grace.
  have hclear : e₁.evaluateEvacuation r.resetEvacuationAttempts now = [] := by
    refine evaluateEvacuation_nil_iff.mpr ⟨fun o ho => ?_, fun _ => ?_⟩
    · rw [← he₁] at ho
      have hbefore := outstandingFor_of_turns pre ho
      refine ⟨fun hfailed => ?_, ?_⟩
      · rw [outstandingFor, hobligations] at hbefore
        obtain ⟨blocker, hmem, hcode⟩ := failed_blocks r now hbefore hfailed
        rcases honly blocker hmem with h | h <;> rw [hcode] at h <;> cases h
      · have hsame : e₁.graceDeadlineFor r.resetEvacuationAttempts o = e'.graceDeadlineFor r o := by
          have hkept := grants_turns e' now pre r.id
          rw [he₁] at hkept
          exact graceDeadlineFor_congr hkept hpolicy₁ o
        rw [hsame]
        exact hcarried o hbefore
    · have hpositive : 1 ≤ e.policy.maxEvacuationAttempts :=
        (DrainPolicy.validate_eq_ok.mp hvalid).maxEvacuationAttempts.1
      rw [hpolicy₁, hpolicy]
      exact hpositive
  have hphase : r.resetEvacuationAttempts.phase = .evacuating := by
    show (if r.state = .blocked then r.blockedFrom.getD .validating else r.state) = _
    rw [if_pos hb, hfrom]
    rfl
  obtain ⟨hout, hlist⟩ := excused_turn (r := r.resetEvacuationAttempts) hd₁ hb hphase hrev rfl
    hclear
  have hlist : (e₁.turn r.id now).2.map EvacuationRequest.obligation =
      ((e₁.outstandingFor r.target).filter isMoving).map Obligation.id := hlist
  rw [unblocked_advance_iff hpass, filter_advance hkeys, he₁, hlist]
  refine ⟨hout, (List.filter_sublist.map _).nodup (e₁.nodup_outstandingFor _), fun obligation => ?_⟩
  rw [List.mem_map]
  constructor
  · rintro ⟨o, ho, hid⟩
    obtain ⟨hmem, hmoving⟩ := List.mem_filter.mp ho
    rw [← he₁] at hmem
    exact ⟨o, outstandingFor_of_turns pre hmem, hmoving, hid⟩
  · rintro ⟨o, ho, hmoving, hid⟩
    have hmem := outstandingFor_turns_of_moving now pre ho hmoving
    rw [he₁] at hmem
    exact ⟨o, List.mem_filter.mpr ⟨hmem, hmoving⟩, hid⟩

namespace OnePort

/-- The flow over the port has been asked for. -/
def askedFlow : Engine :=
  run perform (Engine.init {})
    ((setup 1 ++ [admitFlow 1]).map .call ++ List.replicate 4 (.advance 1))

/-- The grace of the flow has expired. -/
def expiredFlow : Engine := (askedFlow.advance afterGrace).1

/-- The drain is granted an exception. -/
def excusedFlow : Engine := (expiredFlow.grantException 1 0 afterGrace 1 afterGrace).1

end OnePort

open OnePort in
/-- The flow is asked for again. -/
theorem exceptions_unblock_expired :
    (excusedFlow.advance afterGrace).1.Unblocked 1 ∧
      1 ∈ ((excusedFlow.advance afterGrace).2.evacuations.filter (fun q => q.drain = 1)).map
        EvacuationRequest.obligation := by
  have hfacts : expiredFlow.policy.validate = .ok () ∧
      expiredFlow.drain 1 = some ((expiredFlow.drain 1).getD {}) ∧
      ((expiredFlow.drain 1).getD {}).state = .blocked ∧
      ((expiredFlow.drain 1).getD {}).blockedFrom = some .evacuating ∧
      ((expiredFlow.drain 1).getD {}).revision ≠ u64Max ∧
      (∀ blocker ∈ expiredFlow.evaluateState ((expiredFlow.drain 1).getD {}) .evacuating afterGrace,
        blocker.code = .obligationGraceExpired ∨ blocker.code = .evacuationAttemptsExhausted) ∧
      (expiredFlow.grantException 1 0 afterGrace 1 afterGrace).2 = .ok () ∧
      (∀ o ∈ excusedFlow.outstandingFor ((expiredFlow.drain 1).getD {}).target,
        afterGrace ≤ excusedFlow.graceDeadlineFor ((expiredFlow.drain 1).getD {}) o) ∧
      ∃ o ∈ excusedFlow.outstandingFor ((expiredFlow.drain 1).getD {}).target,
        isMoving o = true ∧ o.id = 1 := by
    decide +kernel
  obtain ⟨hvalid, hr, hb, hfrom, hrev, honly, hok, hcarried, hmoving⟩ := hfacts
  obtain ⟨hleft, -, hasked⟩ := exceptions_unblock hvalid hr hb hfrom hrev honly
    (.single ⟨0, afterGrace, 1, afterGrace, Prod.ext rfl hok⟩) hcarried
  exact ⟨hleft, (hasked 1).mpr hmoving⟩

/-! ### A drain that cannot move any more -/

namespace Engine

section Flap

variable {e : Engine} {r : DrainRecord} {now : TimePoint}

/-- The turn that blocks an evacuating drain. -/
theorem turn_blocks (hd : e.drain r.id = some r) (hs : r.state = .evacuating)
    (hrev : r.revision < u64Max) (hmoving : (e.outstandingFor r.target).any isMoving = true)
    (hblocked : e.evaluateEvacuation r now ≠ []) :
    ∃ blockers, (e.turn r.id now).1.toWorld =
      e.toWorld.withDrain ((r.setBlockers blockers).moved .blocked now "evacuation-blocked") := by
  have hne : ¬ (e.evaluateEvacuation r now).isEmpty = true :=
    fun h => hblocked (List.isEmpty_iff.mp h)
  rw [turn_evacuating hd hs]
  simp only [stepEvacuating, hmoving, not_true_eq_false, if_false, if_pos hne, enterBlocked]
  refine ⟨(Blocker.normalize (e.evaluateEvacuation r now)).take e.policy.maxBlockersPerDrain, ?_⟩
  generalize hr₁ : r.setBlockers
    ((Blocker.normalize (e.evaluateEvacuation r now)).take e.policy.maxBlockersPerDrain) = r₁
  have hstate : r₁.state = .evacuating := by rw [← hr₁]; exact hs
  have hrev₁ : r₁.revision < u64Max := by rw [← hr₁]; exact hrev
  rw [if_neg (by rw [hstate]; decide), applyTransition_moves (by rw [hstate]; decide)
    (by rw [hstate]; rfl) hrev₁, storeDrain_toWorld]
  exact withDrain_withDrain rfl

/-- The turn that resumes it, before the next attempt is due. -/
theorem turn_resumes (hd : e.drain r.id = some r) (hb : r.state = .blocked)
    (hphase : r.phase = .evacuating) (hrev : r.revision ≠ u64Max)
    (hmoving : (e.outstandingFor r.target).any isMoving = true)
    (hclear : e.evaluateEvacuation r now = []) (hcounted : r.evacuationRequests ≠ 0)
    (hearly : now < saturatingAdd r.lastEvacuationAt e.policy.evacuationRetryInterval) :
    (e.turn r.id now).1.toWorld =
      e.toWorld.withDrain (r.moved .evacuating now "blockers cleared") := by
  obtain ⟨e₁, hturn, hworld, hclear₁⟩ := turn_of_cleared hd hb hphase hrev hclear
  have hmoving₁ : (e₁.outstandingFor
      (r.moved .evacuating now "blockers cleared").target).any isMoving = true := by
    rw [hworld]
    exact hmoving
  have hwait : (r.moved .evacuating now "blockers cleared").evacuationRequests ≠ 0 ∧
      ¬ now ≥ saturatingAdd (r.moved .evacuating now "blockers cleared").lastEvacuationAt
        e₁.policy.evacuationRetryInterval := by
    rw [hworld]
    exact ⟨hcounted, not_le.mpr hearly⟩
  rw [hturn]
  simp only [stepEvacuating, hmoving₁, hclear₁, not_true_eq_false, if_false, List.isEmpty_nil,
    if_pos hwait]
  exact hworld

end Flap

end Engine

namespace OnePort

/-- Its drain, at another revision. -/
def flapped (revision : Revision) : DrainRecord := { (askedFlow.drain 1).getD {} with revision }

theorem reachable_askedFlow : Reachable (fun _ _ => True) askedFlow :=
  reachable_run (.init {}) (by decide +kernel)

theorem askedFlow_facts : askedFlow.drains.keys = [1] ∧
    ((askedFlow.drain 1).getD {}).id = 1 ∧
    ((askedFlow.drain 1).getD {}).state = .evacuating ∧
    ((askedFlow.drain 1).getD {}).blockedFrom = none ∧
    ((askedFlow.drain 1).getD {}).blockers = [] ∧
    ((askedFlow.drain 1).getD {}).stateSince = 1 ∧
    ((askedFlow.drain 1).getD {}).evacuationRequests ≠ 0 ∧
    1 < saturatingAdd ((askedFlow.drain 1).getD {}).lastEvacuationAt
      askedFlow.policy.evacuationRetryInterval ∧
    (askedFlow.outstandingFor ((askedFlow.drain 1).getD {}).target).any isMoving = true ∧
    askedFlow.evaluateEvacuation ((askedFlow.drain 1).getD {}) 1 = [] ∧
    (askedFlow.evaluateEvacuation ((askedFlow.drain 1).getD {}) afterGrace).map Blocker.code =
      [.obligationGraceExpired] := by
  decide +kernel

theorem askedFlow_drain : askedFlow.drain ((askedFlow.drain 1).getD {}).id =
    some ((askedFlow.drain 1).getD {}) := by
  decide +kernel

/-- Blocked and resumed, a record differs in its revision. -/
theorem moved_back {r : DrainRecord} (hs : r.state = .evacuating) (hfrom : r.blockedFrom = none)
    (hblockers : r.blockers = []) {since : TimePoint} (hsince : r.stateSince = since)
    (blockers : List Blocker) (late : TimePoint) {blocked resumed : String} :
    ((r.setBlockers blockers).moved .blocked late blocked).moved .evacuating since resumed =
      { r with revision := r.revision + 2 } := by
  cases r
  subst hs hfrom hblockers hsince
  rfl

/-- An exception can be granted after the grace, and carries it far enough. -/
theorem askedFlow_excused : askedFlow.policy.validate = .ok () ∧
    askedFlow.requireAuthority 1 afterGrace = .ok () ∧
    (askedFlow.grants 1).length < askedFlow.policy.maxExceptionExtensions ∧
    incrementChecked32 askedFlow.exceptionHighWater = some 1 ∧
    ∀ o ∈ askedFlow.outstandingFor ((askedFlow.drain 1).getD {}).target,
      afterGrace ≤ (askedFlow.toWorld.withGrant
        { drain := 1, obligation := 0, extension := afterGrace, authority := 1,
          grantedAt := afterGrace, sequence := 1 }).graceDeadlineFor
            ((askedFlow.drain 1).getD {}) o := by
  decide +kernel

/-- The drain is alone, and what it finds does not depend on its revision. -/
theorem alone_of_alike {e : Engine} {r : DrainRecord}
    (halike : ((askedFlow.drain 1).getD {}).Alike r)
    (hworld : e.toWorld = askedFlow.toWorld.withDrain r) :
    e.drain r.id = some r ∧ (∀ now, (e.advance now).1 = (e.turn r.id now).1) ∧
      (e.outstandingFor r.target).any isMoving = true ∧
      ∀ now, e.evaluateEvacuation r now =
        askedFlow.evaluateEvacuation ((askedFlow.drain 1).getD {}) now := by
  obtain ⟨hkeys, hid, -, -, -, -, -, -, hmoving, -⟩ := askedFlow_facts
  have hr : e.drain r.id = some r := by rw [hworld, drain_withDrain, if_pos rfl]
  have halone : ∀ m other, e.drain m = some other → m ≠ r.id → isSettled other.state = true := by
    intro m other hother hne
    rw [hworld, drain_withDrain, if_neg (Ne.symm hne)] at hother
    have hmem := Table.mem_keys_iff.mpr ⟨other, hother⟩
    rw [hkeys, List.mem_singleton, ← hid, ← halike.id] at hmem
    exact absurd hmem hne
  have hpeers : Peers ((askedFlow.drain 1).getD {}).id askedFlow.toWorld e.toWorld := by
    rw [hworld, ← halike.id]
    exact peers_withDrain askedFlow.toWorld r
  refine ⟨hr, fun now => ?_, ?_, fun now => evaluateState_congr hpeers halike .evacuating now⟩
  · rw [advance_of_alone hr halone]
  · rw [hworld, halike.target]
    exact hmoving

/-- A pass after the grace of the flow blocks the drain. -/
theorem flap_blocks {e : Engine} {revision : Revision} (hroom : revision < u64Max)
    (hworld : e.toWorld = askedFlow.toWorld.withDrain (flapped revision)) :
    ∃ blockers, (e.advance afterGrace).1.toWorld = askedFlow.toWorld.withDrain
      (((flapped revision).setBlockers blockers).moved .blocked afterGrace
        "evacuation-blocked") := by
  obtain ⟨-, -, hs, -, -, -, -, -, -, -, hexpired⟩ := askedFlow_facts
  have halike : ((askedFlow.drain 1).getD {}).Alike (flapped revision) :=
    ⟨rfl, rfl, rfl, rfl, rfl, rfl, rfl⟩
  obtain ⟨hr, hturn, hmoving, heval⟩ := alone_of_alike halike hworld
  have hblocked : e.evaluateEvacuation (flapped revision) afterGrace ≠ [] := by
    rw [heval]
    intro hnil
    rw [hnil] at hexpired
    cases hexpired
  obtain ⟨blockers, hafter⟩ := turn_blocks hr hs hroom hmoving hblocked
  rw [← hturn, hworld] at hafter
  exact ⟨blockers, hafter.trans (withDrain_withDrain rfl)⟩

/-- And one before it resumes the drain. -/
theorem flap_resumes {e : Engine} {revision : Revision} (hroom : revision + 2 ≤ u64Max)
    {blockers : List Blocker} (hworld : e.toWorld = askedFlow.toWorld.withDrain
      (((flapped revision).setBlockers blockers).moved .blocked afterGrace
        "evacuation-blocked")) :
    (e.advance 1).1.toWorld = askedFlow.toWorld.withDrain (flapped (revision + 2)) := by
  obtain ⟨-, -, hs, hfrom, hblockers, hsince, hcount, hearly, -, hclear, -⟩ := askedFlow_facts
  have halike : ((askedFlow.drain 1).getD {}).Alike
      (((flapped revision).setBlockers blockers).moved .blocked afterGrace "evacuation-blocked") :=
    ⟨rfl, rfl, rfl, rfl, rfl, rfl, rfl⟩
  obtain ⟨hr, hturn, hmoving, heval⟩ := alone_of_alike halike hworld
  have hagain := turn_resumes hr rfl hs (Nat.ne_of_lt hroom) hmoving
    ((heval 1).trans hclear) hcount (by rw [hworld]; exact hearly)
  rw [← hturn, hworld] at hagain
  rw [hagain.trans (withDrain_withDrain rfl)]
  exact congrArg _ (moved_back (r := flapped revision) hs hfrom hblockers hsince blockers afterGrace)

/-- As often as the counter allows. -/
theorem flaps (count : Nat) (hroom : ((askedFlow.drain 1).getD {}).revision + 2 * count ≤ u64Max) :
    ∃ e, Reachable (fun _ _ => True) e ∧ e.toWorld = askedFlow.toWorld.withDrain
      (flapped (((askedFlow.drain 1).getD {}).revision + 2 * count)) := by
  induction count with
  | zero =>
    refine ⟨askedFlow, reachable_askedFlow, (withDrain_self ?_).symm⟩
    exact askedFlow_drain
  | succ count ih =>
    obtain ⟨e, he, hworld⟩ := ih ((Nat.le_add_right _ 2).trans hroom)
    have hpass : ∀ {e : Engine} (now : TimePoint), Reachable (fun _ _ => True) e →
        Reachable (fun _ _ => True) (e.advance now).1 :=
      fun now he => he.advance now (always_of_forall (fun _ _ _ => trivial) _)
    obtain ⟨blockers, hblocked⟩ := flap_blocks (Nat.lt_of_succ_lt hroom) hworld
    exact ⟨_, hpass 1 (hpass afterGrace he), flap_resumes hroom hblocked⟩

/-- The drain is blocked and its revision is the last one. -/
theorem exhausted_flow : ∃ e blockers, Reachable (fun _ _ => True) e ∧
    e.toWorld = askedFlow.toWorld.withDrain (((flapped (u64Max - 1)).setBlockers blockers).moved
      .blocked afterGrace "evacuation-blocked") := by
  have hfirst : ((askedFlow.drain 1).getD {}).revision = 4 := by decide +kernel
  have hlast : ((askedFlow.drain 1).getD {}).revision + 2 * (2 ^ 63 - 3) = u64Max - 1 := by
    rw [hfirst]
    rfl
  obtain ⟨e, he, hworld⟩ := flaps (2 ^ 63 - 3) (by rw [hlast]; exact Nat.sub_le _ _)
  rw [hlast] at hworld
  obtain ⟨blockers, hblocked⟩ := flap_blocks (by decide) hworld
  exact ⟨_, blockers, he.advance afterGrace (always_of_forall (fun _ _ _ => trivial) _), hblocked⟩

end OnePort

open OnePort

/-- The grace of the flow has expired and an exception carries it on, but the drain has
used up its revisions, so the pass leaves it blocked. -/
theorem exceptions_leave_blocked : ∃ e e' r, Reachable (fun _ _ => True) e ∧
    e.policy.validate = .ok () ∧ e.drain 1 = some r ∧ r.state = .blocked ∧
    r.blockedFrom = some .evacuating ∧
    (∀ blocker ∈ e.evaluateState r .evacuating afterGrace,
      blocker.code = .obligationGraceExpired) ∧
    Relation.TransGen (Grants 1) e e' ∧
    (∀ o ∈ e'.outstandingFor r.target, afterGrace ≤ e'.graceDeadlineFor r o) ∧
    ¬ (e'.advance afterGrace).1.Unblocked 1 := by
  obtain ⟨-, -, hs, -, -, -, -, -, -, -, hexpired⟩ := askedFlow_facts
  obtain ⟨e, blockers, he, hworld⟩ := exhausted_flow
  generalize hr : ((flapped (u64Max - 1)).setBlockers blockers).moved .blocked afterGrace
    "evacuation-blocked" = r at hworld
  have halike : ((askedFlow.drain 1).getD {}).Alike r :=
    hr ▸ ⟨rfl, rfl, rfl, rfl, rfl, rfl, rfl⟩
  obtain ⟨hdrain, -, -, heval⟩ := alone_of_alike halike hworld
  have hid : r.id = 1 := halike.id.trans askedFlow_facts.2.1
  rw [hid] at hdrain
  obtain ⟨hvalid, hauth, hroom, hsequence, hcarried⟩ := askedFlow_excused
  have hblocked : r.state = .blocked := hr ▸ rfl
  obtain ⟨e', hgrant, hworld'⟩ := grantException_of_room
    (hworld.symm ▸ hauth : e.requireAuthority 1 afterGrace = .ok ()) afterGrace (by decide) hdrain (by rw [hblocked]; rfl)
    (by rw [hworld]; exact hroom) (by rw [hworld]; exact hsequence)
  have hdrain' : e'.drain 1 = some r.resetEvacuationAttempts := by
    rw [hworld', drain_withDrain]
    exact if_pos hid
  refine ⟨e, e', r, he, by rw [hworld]; exact hvalid, hdrain, hblocked, ?_, ?_,
    .single ⟨0, afterGrace, 1, afterGrace, hgrant⟩, ?_, ?_⟩
  · rw [← hr]
    exact congrArg some hs
  · intro blocker hmem
    have hcode : blocker.code ∈ [BlockerCode.obligationGraceExpired] := by
      rw [← hexpired, ← heval]
      exact List.mem_map_of_mem hmem
    exact List.mem_singleton.mp hcode
  · intro o ho
    rw [hworld', hworld, halike.target] at ho
    rw [hworld', hworld]
    refine (hcarried o ho).trans_eq (graceDeadlineFor_congr ?_ rfl o).symm
    rw [hid, askedFlow_facts.2.1]
  · intro hleft
    obtain ⟨pre, post, -, hpass, hd₁, -⟩ := exists_turn hdrain' afterGrace
    rw [unblocked_advance_iff hpass] at hleft
    have hrev : r.revision = u64Max := hr ▸ rfl
    have hid' : r.resetEvacuationAttempts.id = 1 := hid
    rw [← hid'] at hd₁ hleft
    exact (clear_of_unblocked hd₁ hblocked hleft).1 hrev

end DrainFabric
