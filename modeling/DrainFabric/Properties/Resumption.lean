import DrainFabric.Engine.Blocking
import DrainFabric.Engine.History

/-!
# The operator's resume and the scheduler

A blocked drain can leave `Blocked` in two ways: the operator asks for it
(`resume_drain`), or the next pass finds its blockers gone (the `Blocked` branch of
`step_drain`). Both evaluate the state the drain was blocked in. They do not come to the
same result in three situations, and only there (`ResumesAlike`):

* the pass goes on with the step of that state, which needs a generation of the fence in
  `Validating` and an observation of the removal in `Quiescing`;
* in `Verifying` the pass observes the removal again before it evaluates, the operator's
  request evaluates what the ledger has. After a restart that is quarantined evidence, so
  the request is refused for a drain the next pass resumes and completes.

`resumeDrain_ok_iff` and `turn_unblocked_iff` say when each of the two succeeds.
-/

namespace DrainFabric

open Lib

namespace AdmissionFence

/-- The fence of the target can be closed by the drain. -/
def Closable (f : AdmissionFence) (target : DrainTarget) (drain : DrainId) : Prop :=
  drain ≠ 0 ∧ f.generation target < u64Max ∧
    (OrdMap.set f.entries target ((f.entry target).getD {})).size ≤ maxFencedTargets

instance (f : AdmissionFence) (target : DrainTarget) (drain : DrainId) :
    Decidable (f.Closable target drain) :=
  inferInstanceAs (Decidable (_ ∧ _ ∧ _))

theorem close_ok_iff {f : AdmissionFence} {target : DrainTarget} {drain : DrainId}
    {at_ : TimePoint} {reason : String} :
    (∃ generation, (f.close target drain at_ reason).2 = .ok generation) ↔
      f.Closable target drain := by
  unfold close Closable
  by_cases hzero : drain = 0
  · simp [hzero, fail]
  · simp only [if_neg hzero, generation_getD, incrementChecked_eq]
    by_cases hnext : f.generation target < u64Max
    · by_cases hfull : (OrdMap.set f.entries target ((f.entry target).getD {})).size >
          maxFencedTargets
      · simp [hnext, hfull, fail]
      · simp [hzero, hnext, hfull, Nat.not_lt.mp hfull]
    · simp [hnext, fail]

end AdmissionFence

namespace EvidenceLedger

/-- A full ledger in which nothing can make way takes no record. -/
theorem record_full {l : EvidenceLedger} {draft : Evidence} (hfull : l.maxRecords ≤ l.records.size)
    (hretire : l.retireOneFor draft.key = none) (fence : EvidenceFence) (live : Bool) :
    ∃ err, (l.record draft fence live).2 = .error err := by
  have hfile : l.fileRecord draft =
      (l, fail .boundsExceeded "evidence ledger is at capacity") := by
    unfold fileRecord
    rw [if_pos hfull, hretire]
  unfold record
  rw [hfile]
  split_ifs
  · exact ⟨_, rfl⟩
  · exact ⟨_, rfl⟩
  · exact ⟨_, rfl⟩
  · split
    · split_ifs <;> exact ⟨_, rfl⟩
    · exact ⟨_, rfl⟩

end EvidenceLedger

namespace World

/-- The engine can file an observation of the drain's removal: the clock skew tolerates
the present, the stream has another number and the ledger has or can make room. -/
def CanObserve (w : World) (r : DrainRecord) (now : TimePoint) : Prop :=
  now ≤ saturatingAdd now w.policy.evidenceClockSkew ∧
    w.evidence.highWater (removalKey r) < u64Max ∧
    (w.evidence.records.size < w.evidence.maxRecords ∨
      (w.evidence.retireOneFor (removalKey r)).isSome = true)

instance (w : World) (r : DrainRecord) (now : TimePoint) : Decidable (w.CanObserve r now) :=
  inferInstanceAs (Decidable (_ ∧ _ ∧ _))

/-- A pass replaces the evidence of a drain blocked in `Verifying` before it evaluates
the drain, and the evaluation reads it. -/
def Reobserves (w : World) (r : DrainRecord) (now : TimePoint) : Prop :=
  w.policy.requireQuiescenceEvidence = true ∧ w.policy.reobserveRemovalEvidence = true ∧
    w.removalIsReobservable r = true ∧ w.CanObserve r now

instance (w : World) (r : DrainRecord) (now : TimePoint) : Decidable (w.Reobserves r now) :=
  inferInstanceAs (Decidable (_ ∧ _ ∧ _ ∧ _))

/-- The operator's request and the scheduler decide alike about the blocked drain. The
exhausted revisions are those with which a drain cannot leave `Blocked`, or cannot be
blocked again once it has. -/
def ResumesAlike (w : World) (r : DrainRecord) (now : TimePoint) : Prop :=
  r.revision ≠ u64Max →
    (r.phase = .validating → w.evaluateStart r now = [] →
      w.fence.Closable r.target r.id ∨ r.revision + 1 = u64Max) ∧
    (r.phase = .quiescing → w.evaluateQuiescence r now = [] → w.retirable r now = [] →
      w.CanObserve r now ∨ r.revision + 1 = u64Max) ∧
    (r.phase = .verifying → w.Reobserves r now →
      ((w.evaluateVerification r now).1 = [] ↔
        w.removalOwnedBy r = true ∧ 0 < w.policy.evidenceFreshness ∧ r.admissionClosedAt ≤ now))

end World

namespace Engine

open World

section Resume

variable {e : Engine} {r : DrainRecord} {now : TimePoint}

/-! ### The operator's request -/

/-- The operator's request succeeds if the evaluation finds no blockers. -/
theorem resumeDrain_ok_iff {authority : AuthorityId} (hd : e.drain r.id = some r)
    (hb : r.state = .blocked) (hauth : e.requireAuthority authority now = .ok ())
    (hlegal : isLegalDrainTransition .blocked r.phase = true) (hphase : r.phase ≠ .blocked) :
    (e.resumeDrain r.id authority now).2 = .ok () ↔
      r.revision ≠ u64Max ∧ e.evaluateState r r.phase now = [] := by
  have hresume : r.blockedFrom.getD .validating = r.phase := by rw [DrainRecord.phase, if_pos hb]
  simp only [resumeDrain, hauth, hd, if_neg (not_not.mpr hb), hresume]
  cases hclear : e.evaluateState r r.phase now with
  | cons first rest =>
    refine iff_of_false (fun h => ?_) (fun h => by cases h.2)
    exact fail_ne_ok h
  | nil =>
    dsimp only
    split
    · rename_i hmove
      rcases DrainRecord.transition_ok (applyTransition_some hmove).1 with
        ⟨hsame, -⟩ | ⟨-, -, hrev, -⟩
      · exact absurd (hsame.trans hb) hphase
      · exact iff_of_true rfl ⟨hrev, rfl⟩
    · rename_i hmove
      obtain ⟨⟨err, ht⟩, -⟩ := applyTransition_none hmove
      refine iff_of_false (fun h => fail_ne_ok h) (fun h => h.1 ?_)
      exact DrainRecord.revision_of_transition_error ht (by rwa [hb])

/-! ### The scheduler's turn -/

theorem recordRemovalEvidence_ok_iff (hcoherent : e.evidence.Coherent) :
    (e.recordRemovalEvidence r now).2 = .ok () ↔ e.CanObserve r now := by
  constructor
  · intro hok
    rcases recordRemovalEvidence_cases hcoherent r now with
      ⟨⟨err, herr⟩, -⟩ | ⟨seq, -, hnumber, htime, -⟩
    · rw [herr] at hok
      cases hok
    · refine ⟨htime, hnumber, ?_⟩
      by_contra hnone
      rw [not_or, not_lt, Option.not_isSome_iff_eq_none] at hnone
      simp only [recordRemovalEvidence, incrementChecked_eq, if_pos hnumber] at hok
      obtain ⟨err, herr⟩ := @EvidenceLedger.record_full e.evidence
        (e.toWorld.removalDraft r now (e.evidence.highWater (removalKey r) + 1)) hnone.1 hnone.2
        (e.evidenceFence now) e.policy.evidenceRequiresLiveIncarnation
      have hrefused := (congrArg (Except.map (fun _ => ())) herr).symm.trans hok
      cases hrefused
  · rintro ⟨htime, hnumber, hroom⟩
    simp only [recordRemovalEvidence, incrementChecked_eq, if_pos hnumber]
    rcases @EvidenceLedger.record_next e.evidence hcoherent
        (e.toWorld.removalDraft r now (e.evidence.highWater (removalKey r) + 1))
        (e.evidenceFence now) e.policy.evidenceRequiresLiveIncarnation rfl rfl rfl htime with
      ⟨hfull, hretire, -⟩ | ⟨room, -, hfiled⟩
    · rcases hroom with hroom | hroom
      · exact absurd hfull (not_le.mpr hroom)
      · exact absurd hretire (Option.isSome_iff_ne_none.mp hroom)
    · exact congrArg (fun p => p.2.map (fun _ => ())) hfiled

theorem turn_unblocked_iff (hcoherent : e.evidence.Coherent) (hd : e.drain r.id = some r)
    (hb : r.state = .blocked) (hlegal : isLegalDrainTransition .blocked r.phase = true)
    (hphase : r.phase ≠ .blocked) :
    (e.turn r.id now).1.Unblocked r.id ↔
      r.revision ≠ u64Max ∧
        (e.toWorld.withEvidence (e.revalidationLedger r now)).evaluateState r r.phase now = [] ∧
        (r.phase = .validating → e.fence.Closable r.target r.id ∨ r.revision + 1 = u64Max) ∧
        (r.phase = .quiescing → e.retirable r now = [] →
          e.CanObserve r now ∨ r.revision + 1 = u64Max) := by
  rw [unblocked_turn_iff hd hb hlegal hphase, AdmissionFence.close_ok_iff,
    recordRemovalEvidence_ok_iff hcoherent]
  by_cases hnext : r.revision + 1 = u64Max <;> simp [hnext]

/-! ### The evaluation in `Verifying` -/

/-- The pass evaluates a new observation, which proves the removal unless the clock is
behind the closure. -/
theorem revalidation_of_reobserves (hcoherent : e.evidence.Coherent) (hnow : now ≤ i64Max)
    (hphase : r.phase = .verifying) (h : e.Reobserves r now) :
    ((e.toWorld.withEvidence (e.revalidationLedger r now)).evaluateVerification r now).1 = [] ↔
      e.removalOwnedBy r = true ∧ 0 < e.policy.evidenceFreshness ∧ r.admissionClosedAt ≤ now := by
  obtain ⟨hreq, hagain, hobservable, hcan⟩ := h
  have hledger : e.revalidationLedger r now = (e.recordRemovalEvidence r now).1.evidence :=
    if_pos ⟨hphase, hagain, hobservable⟩
  have hok := (recordRemovalEvidence_ok_iff hcoherent).mpr hcan
  rcases recordRemovalEvidence_cases hcoherent r now with
    ⟨⟨err, herr⟩, -⟩ | ⟨seq, -, -, htime, hlatest⟩
  · rw [herr] at hok
    cases hok
  have hnone : e.outstandingFor r.target = [] := by
    simp only [removalIsReobservable, Bool.and_eq_true] at hobservable
    exact List.isEmpty_iff.mp hobservable.1.1
  rw [hledger, evaluateVerification_nil_iff]
  constructor
  · rintro ⟨_, howned, hall⟩
    obtain ⟨proof, hproof⟩ := hall hreq
    obtain ⟨record, hrecord, -, hfresh, -, hclosed⟩ := removalProof_ok hproof
    obtain rfl := Option.some.inj (hlatest.symm.trans hrecord)
    exact ⟨howned, (EvidenceLedger.isFresh_iff.mp hfresh).2.2.2.1, hclosed⟩
  · rintro ⟨howned, hpositive, hclosed⟩
    refine ⟨hnone, howned, fun _ => ?_⟩
    refine (removalProof_iff (w := e.toWorld.withEvidence _)
      (e := { e.toWorld.removalDraft r now seq with attested := true }) hlatest
      (EvidenceLedger.isFresh_iff.mpr ?_) rfl).mpr hclosed
    exact ⟨rfl, rfl, htime, hpositive, le_saturatingAdd hnow hpositive.le⟩

/-- Otherwise it evaluates what the ledger has, or does not read the ledger. -/
theorem revalidation_of_not_reobserves (hcoherent : e.evidence.Coherent)
    (h : ¬ e.Reobserves r now) :
    ((e.toWorld.withEvidence (e.revalidationLedger r now)).evaluateVerification r now).1 = [] ↔
      (e.evaluateVerification r now).1 = [] := by
  by_cases hreq : e.policy.requireQuiescenceEvidence = true
  · suffices hledger : e.revalidationLedger r now = e.evidence by
      rw [hledger]
      rfl
    unfold revalidationLedger
    split_ifs with hagain
    · rcases recordRemovalEvidence_cases hcoherent r now with ⟨-, hsame⟩ | ⟨seq, hok, -⟩
      · rw [hsame]
      · have hcan := (recordRemovalEvidence_ok_iff hcoherent).mp hok
        exact absurd ⟨hreq, hagain.2.1, hagain.2.2, hcan⟩ h
    · rfl
  · rw [evaluateVerification_nil_iff, evaluateVerification_nil_iff]
    exact and_congr_right' (and_congr_right' (iff_of_true (absurd · hreq) (absurd · hreq)))

end Resume

end Engine

open Engine World

/-- A reachable state, a blocked drain in it and a valid authority: the operator's request
succeeds exactly if the drain's own turn would take it out of `Blocked`, precisely when
the two decide alike. -/
theorem operator_resume_agrees_iff {C : Engine → Event → Prop} {e : Engine} (he : Reachable C e)
    {id : DrainId} {r : DrainRecord} (hr : e.drain id = some r) (hb : r.state = .blocked)
    {authority : AuthorityId} {now : TimePoint} (hnow : now ≤ i64Max)
    (hauth : e.requireAuthority authority now = .ok ()) :
    ((e.resumeDrain id authority now).2 = .ok () ↔ (e.turn id now).1.Unblocked id) ↔
      e.ResumesAlike r now := by
  obtain rfl := id_of_drain hr
  obtain ⟨state, hfrom, hne, hblocks⟩ := he.parked hr hb
  have hphase : r.phase = state := by rw [DrainRecord.phase, if_pos hb, hfrom]; rfl
  have hlegal : isLegalDrainTransition .blocked r.phase = true := by
    rw [hphase]
    revert hblocks hne
    cases state <;> decide
  rw [resumeDrain_ok_iff hr hb hauth hlegal (hphase ▸ hne),
    turn_unblocked_iff he.coherent hr hb hlegal (hphase ▸ hne), ResumesAlike]
  by_cases hrev : r.revision = u64Max
  · simp [hrev]
  simp only [ne_eq, hrev, not_false_eq_true, true_and, true_implies]
  by_cases hver : r.phase = .verifying
  · -- The two evaluate the same state, but not the same ledger.
    simp only [hver, reduceCtorEq, false_implies, and_true, true_and, true_implies]
    change ((e.evaluateVerification r now).1 = [] ↔
      ((e.toWorld.withEvidence (e.revalidationLedger r now)).evaluateVerification r now).1 = []) ↔ _
    by_cases hagain : e.Reobserves r now
    · rw [revalidation_of_reobserves he.coherent hnow hver hagain]
      exact ⟨fun h _ => h, fun h => h hagain⟩
    · rw [revalidation_of_not_reobserves he.coherent hagain]
      exact iff_of_true Iff.rfl (fun h => absurd h hagain)
  · -- They evaluate the same, and the turn goes on with the step.
    rw [revalidationLedger_of_ne hver]
    change (e.evaluateState r r.phase now = [] ↔ e.evaluateState r r.phase now = [] ∧ _) ↔ _
    rw [iff_self_and]
    constructor
    · intro h
      refine ⟨fun hval hclear => ?_, fun hquiesc hclear hretire => ?_, fun h => absurd h hver⟩
      · exact (h (by rw [hval]; exact hclear)).1 hval
      · exact (h (by rw [hquiesc]; exact hclear)).2 hquiesc hretire
    · rintro ⟨hclose, hobserve, _⟩ hclear
      refine ⟨fun hval => hclose hval ?_, fun hquiesc => hobserve hquiesc ?_⟩
      · rwa [hval] at hclear
      · rwa [hquiesc] at hclear

namespace OnePort

/-- The drain of the port is recovered from a restart after some passes, and a new token
is issued. -/
def recovered (passes : Nat) : Engine :=
  run perform (Engine.init {}) ((setup 1).map .call ++ List.replicate passes (.advance 1) ++
    [.restart 1 2, .call (.issueAuthority "" 0 2)])

theorem reachable_recovered (passes : Nat) : Reachable (fun _ _ => True) (recovered passes) :=
  reachable_run (.init {}) (always_of_forall (fun op _ e => by
    cases op with
    | call c => trivial
    | advance now => exact always_of_forall (fun _ _ _ => trivial) e
    | restart prev now => trivial) _)

end OnePort

open OnePort

/-- Recovered in `Quiescing`, both resume the drain. -/
theorem operator_resume_agrees_quiescing :
    ((recovered 3).resumeDrain 1 2 2).2 = .ok () ↔ ((recovered 3).turn 1 2).1.Unblocked 1 := by
  have hfacts : (recovered 3).drain 1 = some (((recovered 3).drain 1).getD {}) ∧
      (((recovered 3).drain 1).getD {}).state = .blocked ∧
      (recovered 3).requireAuthority 2 2 = .ok () ∧
      (recovered 3).ResumesAlike (((recovered 3).drain 1).getD {}) 2 := by
    unfold ResumesAlike
    decide +kernel
  obtain ⟨hr, hb, hauth, halike⟩ := hfacts
  exact (operator_resume_agrees_iff (reachable_recovered 3) hr hb (by decide) hauth).mpr halike

/-- Recovered in `Verifying`, the operator is told to wait for evidence that the next turn
takes itself. -/
theorem operator_resume_refused :
    Reachable (fun _ _ => True) (recovered 4) ∧
      ((recovered 4).drain 1).map (fun r => (r.state, r.blockedFrom)) =
        some (.blocked, some .verifying) ∧
      (recovered 4).requireAuthority 2 2 = .ok () ∧
      (((recovered 4).resumeDrain 1 2 2).2.toOption = none) ∧
      (((recovered 4).turn 1 2).1.drain 1).map DrainRecord.state = some .drained := by
  exact ⟨reachable_recovered 4, by decide +kernel⟩

end DrainFabric
