import DrainFabric.Engine.Evaluation
import DrainFabric.Engine.Frame
import DrainFabric.Engine.WellFormed

/-!
# When a step blocks its drain

A turn of a blocked drain first revalidates it (`resumeBlocked`) and then takes the
step of the state it was resumed to. The two decide separately whether the drain is
blocked, so they are compared here.

* `Unblocked` — the drain is not blocked;
* `resumeBlocked_some`, `resumeBlocked_of_clear` — when a blocked drain is resumed;
* `unblocked_stepValidating_iff` … `unblocked_stepRestoring` — when each step does not block
  the drain.
-/

namespace DrainFabric

open Lib

variable {e₁ : Engine} {r₁ : DrainRecord}

namespace World

/-- An obligation that still has to be moved blocks quiescence. -/
theorem not_moving_of_quiet {w : World} {r : DrainRecord} {now : TimePoint}
    (h : w.evaluateQuiescence r now = []) :
    ∀ o ∈ w.outstandingFor r.target, isMoving o = false := by
  intro o ho
  have hnone : w.quiescenceBlocker r now o = none := by
    have hall : (w.outstandingFor r.target).filterMap (w.quiescenceBlocker r now) = [] := by
      simp only [evaluateQuiescence] at h
      split_ifs at h with hmore
      · exact h
      · by_contra hne
        exact hmore (Or.inl (fun hempty => hne (List.isEmpty_iff.mp hempty)))
    exact List.filterMap_eq_nil_iff.mp hall o ho
  cases hstate : o.state <;> simp [quiescenceBlocker, isMoving, hstate] at hnone ⊢

end World

namespace Engine

open World

/-- The drain `id` is not blocked. -/
def Unblocked (e : Engine) (id : DrainId) : Prop :=
  ∀ r, e.drain id = some r → r.state ≠ .blocked

theorem unblocked_of_drain {e : Engine} {r : DrainRecord} (hd : e.drain r.id = some r)
    (hs : r.state ≠ .blocked) : e.Unblocked r.id := by
  intro r' hr'
  rw [hd] at hr'
  rwa [← Option.some.inj hr']

/-- The record last written is the one the table has. -/
theorem unblocked_of_world {e : Engine} {w : World} {r : DrainRecord} {id : DrainId}
    (hw : e.toWorld = w.withDrain r) (hid : r.id = id) (hs : r.state ≠ .blocked) :
    e.Unblocked id := by
  subst hid
  refine unblocked_of_drain ?_ hs
  rw [hw, drain_withDrain, if_pos rfl]

section Building

variable {e : Engine} {r : DrainRecord} {now : TimePoint}

/-- The record last written decides. -/
theorem unblocked_iff_of_world {w : World} {id : DrainId} (hw : e.toWorld = w.withDrain r)
    (hid : r.id = id) : e.Unblocked id ↔ r.state ≠ .blocked := by
  subst hid
  simp [Unblocked, hw]

/-- A move to another state than `Blocked` does not block, whether it applies or not. -/
theorem unblocked_applyTransition (hd : e.drain r.id = some r) (hs : r.state ≠ .blocked)
    {next : DrainState} (hnext : next ≠ .blocked) (detail : String) (outcome : DecisionOutcome)
    (inputs notes rejected : List String) :
    (e.applyTransition r next now detail outcome inputs notes rejected).1.Unblocked r.id := by
  rw [unblocked_iff_of_world (applyTransition_toWorld hd) DrainRecord.id_tried]
  unfold DrainRecord.tried DrainRecord.transition
  split_ifs
  · exact hs
  · exact hs
  · exact hnext
  · exact hs

/-- With an exhausted revision even blocking fails. -/
theorem unblocked_enterBlocked_iff (hlegal : isLegalDrainTransition r.state .blocked = true)
    (hs : r.state ≠ .blocked) {blockers : List Blocker} {action : String} :
    (e.enterBlocked r blockers now action).Unblocked r.id ↔ r.revision = u64Max := by
  rw [unblocked_iff_of_world (enterBlocked_toWorld e r blockers now action) (r.hold_barred _ _ _).id]
  by_cases hrev : r.revision = u64Max
  · rw [DrainRecord.barred_exhausted hrev]
    exact iff_of_true hs hrev
  · rw [DrainRecord.barred_blocks hrev hlegal]
    exact iff_of_false (fun h => h rfl) hrev

/-! ### The removal observation -/

/-- The observation is refused and changes nothing, or it becomes the newest record of
the drain's stream. -/
theorem recordRemovalEvidence_cases (hcoherent : e.evidence.Coherent) (r : DrainRecord)
    (now : TimePoint) :
    ((∃ err, (e.recordRemovalEvidence r now).2 = .error err) ∧
        (e.recordRemovalEvidence r now).1 = e) ∨
      ∃ seq, (e.recordRemovalEvidence r now).2 = .ok () ∧
        e.evidence.highWater (removalKey r) < u64Max ∧
        now ≤ saturatingAdd now e.policy.evidenceClockSkew ∧
        (e.recordRemovalEvidence r now).1.evidence.latest (removalKey r) =
          some { e.toWorld.removalDraft r now seq with attested := true } := by
  simp only [recordRemovalEvidence]
  cases hseq : incrementChecked (e.evidence.highWater (removalKey r)) with
  | none => exact Or.inl ⟨⟨_, rfl⟩, rfl⟩
  | some seq =>
    obtain ⟨hroom, -⟩ := incrementChecked_eq_some hseq
    dsimp only
    rcases EvidenceLedger.record_cases hcoherent (e.toWorld.removalDraft r now seq)
        (e.evidenceFence now) e.policy.evidenceRequiresLiveIncarnation with
      ⟨err, heq⟩ | ⟨room, -, -, -, heq⟩
    · refine Or.inl ⟨⟨err, congrArg (fun p => p.2.map (fun _ => ())) heq⟩, ?_⟩
      have hsame : (e.evidence.record (e.toWorld.removalDraft r now seq) (e.evidenceFence now)
          e.policy.evidenceRequiresLiveIncarnation).1 = e.evidence := congrArg Prod.fst heq
      exact congrArg (fun evidence => ({ e with evidence } : Engine)) hsame
    · refine Or.inr ⟨seq, congrArg (fun p => p.2.map (fun _ => ())) heq, hroom, ?_, ?_⟩
      · -- A record from the future is refused.
        by_contra hfuture
        have hrefused : e.evidence.record (e.toWorld.removalDraft r now seq)
            (e.evidenceFence now) e.policy.evidenceRequiresLiveIncarnation =
            (e.evidence, fail .invalidArgument
              "evidence observed beyond the tolerated clock skew is rejected") :=
          if_pos (not_le.mp hfuture)
        rw [hrefused] at heq
        exact fail_ne_ok (congrArg Prod.snd heq)
      · have hledger : (e.evidence.record (e.toWorld.removalDraft r now seq)
            (e.evidenceFence now) e.policy.evidenceRequiresLiveIncarnation).1 =
            room.filed { e.toWorld.removalDraft r now seq with attested := true } :=
          congrArg Prod.fst heq
        exact hledger ▸ EvidenceLedger.latest_filed room
          { e.toWorld.removalDraft r now seq with attested := true }

/-- The drain's own observation is refused only for its time, or for want of room or of a
number. -/
theorem recordRemovalEvidence_next (hcoherent : e.evidence.Coherent)
    (htime : now ≤ saturatingAdd now e.policy.evidenceClockSkew) :
    (∃ err, (e.recordRemovalEvidence r now).2 = .error err ∧ err.code = .boundsExceeded ∧
        (e.evidence.highWater (removalKey r) < u64Max →
          e.evidence.retireOneFor (removalKey r) = none)) ∨
      (e.recordRemovalEvidence r now).2 = .ok () := by
  simp only [recordRemovalEvidence]
  cases hseq : incrementChecked (e.evidence.highWater (removalKey r)) with
  | none =>
    refine Or.inl ⟨_, rfl, rfl, fun hroom => ?_⟩
    rw [incrementChecked_eq, if_pos hroom] at hseq
    cases hseq
  | some seq =>
    obtain ⟨-, rfl⟩ := incrementChecked_eq_some hseq
    rcases @EvidenceLedger.record_next e.evidence hcoherent
        (e.toWorld.removalDraft r now (e.evidence.highWater (removalKey r) + 1))
        (e.evidenceFence now) e.policy.evidenceRequiresLiveIncarnation rfl rfl rfl htime with
      ⟨-, hretire, hfull⟩ | ⟨room, -, hfiled⟩
    · exact Or.inl ⟨_, congrArg (fun p => p.2.map (fun _ => ())) hfull, rfl, fun _ => hretire⟩
    · exact Or.inr (congrArg (fun p => p.2.map (fun _ => ())) hfiled)

theorem recordRemovalEvidence_ok (hcoherent : e.evidence.Coherent)
    (htime : now ≤ saturatingAdd now e.policy.evidenceClockSkew)
    (hroom : ∀ err, (e.recordRemovalEvidence r now).2 = .error err → err.code ≠ .boundsExceeded) :
    (e.recordRemovalEvidence r now).2 = .ok () := by
  rcases recordRemovalEvidence_next hcoherent htime with ⟨err, herr, hcode, -⟩ | hok
  · exact absurd hcode (hroom err herr)
  · exact hok

/-! ### The steps -/

theorem unblocked_stepRequested (hd : e.drain r.id = some r) (hs : r.state = .requested) :
    (e.stepRequested r now).Unblocked r.id :=
  unblocked_applyTransition hd (by rw [hs]; decide) (by decide) _ _ _ _ _

theorem unblocked_stepValidating_iff (hs : r.state = .validating) :
    (e.stepValidating r now).Unblocked r.id ↔
      r.revision = u64Max ∨ e.evaluateStart r now = [] ∧
        ∃ generation, (e.fence.close r.target r.id now r.reason).2 = .ok generation := by
  simp only [stepValidating]
  split_ifs with hblocked
  · rcases hc : e.fence.close r.target r.id now r.reason with ⟨fence, err | generation⟩
    · dsimp only
      rw [unblocked_enterBlocked_iff (by rw [hs]; rfl) (by rw [hs]; decide)]
      simp
    · refine iff_of_true ?_ (Or.inr ⟨List.isEmpty_iff.mp hblocked, generation, rfl⟩)
      exact unblocked_applyTransition (r := { r with generation }) (drain_storeDrain _ _)
        (by simp [hs]) (by decide) _ _ _ _ _
  · rw [unblocked_enterBlocked_iff (by rw [hs]; rfl) (by rw [hs]; decide)]
    simp_all

theorem unblocked_stepAdmissionClosed (hd : e.drain r.id = some r)
    (hs : r.state = .admissionClosed) : (e.stepAdmissionClosed r now).Unblocked r.id := by
  have hne : r.state ≠ .blocked := by rw [hs]; decide
  simp only [stepAdmissionClosed]
  split_ifs
  · exact unblocked_of_drain hd hne
  · exact unblocked_applyTransition hd hne (by decide) _ _ _ _ _
  · exact unblocked_applyTransition hd hne (by decide) _ _ _ _ _

theorem unblocked_stepEvacuating_iff (hd : e.drain r.id = some r) (hs : r.state = .evacuating) :
    (e.stepEvacuating r now).1.Unblocked r.id ↔
      r.revision = u64Max ∨ ((e.outstandingFor r.target).any isMoving = true →
        e.evaluateEvacuation r now = []) := by
  have hne : r.state ≠ .blocked := by rw [hs]; decide
  simp only [stepEvacuating]
  split_ifs with hmoving hblocked hwait
  · exact iff_of_true (unblocked_of_drain hd hne) (Or.inr fun _ => List.isEmpty_iff.mp hblocked)
  · refine iff_of_true ?_ (Or.inr fun _ => List.isEmpty_iff.mp hblocked)
    exact unblocked_of_world (w := e.toWorld) (r := r.noteEvacuationAttempt now) rfl rfl hne
  · rw [unblocked_enterBlocked_iff (by rw [hs]; rfl) hne]
    simp_all
  · exact iff_of_true (unblocked_applyTransition hd hne (by decide) _ _ _ _ _)
      (Or.inr fun h => absurd h hmoving)

theorem unblocked_observeRemoval_iff (hd : e.drain r.id = some r) (hs : r.state = .quiescing) :
    (e.observeRemoval r now).Unblocked r.id ↔
      r.revision = u64Max ∨ (e.recordRemovalEvidence r now).2 = .ok () := by
  have hne : r.state ≠ .blocked := by rw [hs]; decide
  obtain ⟨evidence, -, heq⟩ := recordRemovalEvidence_observed e r now
  simp only [observeRemoval]
  rcases hrec : e.recordRemovalEvidence r now with ⟨e', err | u⟩
  · dsimp only
    rw [unblocked_enterBlocked_iff (by rw [hs]; rfl) hne]
    simp
  · rw [hrec] at heq
    obtain rfl : e' = { e with evidence } := heq
    exact iff_of_true (unblocked_applyTransition (e := { e with evidence }) hd hne (by decide)
      _ _ _ _ _) (Or.inr rfl)

/-- The removal step does not block a drain the revalidation has cleared, if the
observation is recorded. -/
theorem unblocked_removalStep_iff (hd : e.drain r.id = some r) (hs : r.state = .quiescing)
    (hclear : e.removalBlockers r now = []) :
    (e.removalStep r now).Unblocked r.id ↔
      r.revision = u64Max ∨ (e.recordRemovalEvidence r now).2 = .ok () := by
  cases hnode : e.topology.resource r.target.id with
  | none => simp [removalBlockers, hnode] at hclear
  | some node =>
    simp only [removalBlockers, hnode] at hclear
    simp only [removalStep, hnode]
    split_ifs at hclear with hout howned hok
    · rw [if_neg (fun h => h.2 howned), if_neg (by simpa [ResourceNode.isInService] using hout)]
      exact unblocked_observeRemoval_iff hd hs
    · have hin : node.isInService = true := by
        simpa [ResourceNode.isInService] using hout
      rw [if_neg (fun h => hout h.1), if_pos hin, if_neg (not_not.mpr hok)]
      obtain ⟨topology, -, heq⟩ := withStatus_toWorld hnode .unavailable
      rw [heq, unblocked_observeRemoval_iff (e := { e with topology }) hd hs]
      -- The observation does not look at the topology.
      rw [(@recordRemovalEvidence_congr e { e with topology } r r rfl rfl rfl (.refl r) now).2]

/-- With nothing left to retire, the evaluation has looked at the removal. -/
theorem removalBlockers_of_quiet (hquiet : e.evaluateQuiescence r now = [])
    (hretire : e.retirable r now = []) : e.removalBlockers r now = [] := by
  simp only [evaluateQuiescence, hretire, List.isEmpty_nil, not_true_eq_false, or_false] at hquiet
  split_ifs at hquiet with hmore
  · exact hquiet
  · exact absurd (by rw [hquiet]; rfl) hmore

theorem unblocked_stepQuiescing_iff (hd : e.drain r.id = some r) (hs : r.state = .quiescing) :
    (e.stepQuiescing r now).Unblocked r.id ↔
      r.revision = u64Max ∨ ((e.outstandingFor r.target).any isMoving = false →
        e.evaluateQuiescence r now = [] ∧
          (e.retirable r now = [] → (e.recordRemovalEvidence r now).2 = .ok ())) := by
  have hne : r.state ≠ .blocked := by rw [hs]; decide
  simp only [stepQuiescing]
  split_ifs with hmoving hblocked hretire
  · refine iff_of_true (unblocked_applyTransition hd hne (by decide) _ _ _ _ _) (Or.inr fun h => ?_)
    rw [hmoving] at h
    cases h
  · have hquiet := List.isEmpty_iff.mp hblocked
    have hnone : e.retirable r now = [] := by simpa using hretire
    rw [unblocked_removalStep_iff hd hs (removalBlockers_of_quiet hquiet hnone)]
    simp [hquiet, hnone, hmoving]
  · refine iff_of_true (unblocked_of_drain hd hne) (Or.inr fun _ => ?_)
    exact ⟨List.isEmpty_iff.mp hblocked, fun h => absurd (List.isEmpty_iff.mpr h) hretire⟩
  · rw [unblocked_enterBlocked_iff (by rw [hs]; rfl) hne]
    simp_all

theorem unblocked_completeDrain {proof : EvidenceSeq} (hs : r.state = .verifying)
    (hv : e.evaluateVerification r now = ([], proof)) :
    (e.completeDrain r proof now).Unblocked r.id := by
  simp only [completeDrain, recordCompletion_of_verified hv]
  exact unblocked_applyTransition (r := e.completionRecord r proof now) (drain_storeDrain _ _)
    (by simp [completionRecord, hs]) (by decide) _ _ _ _ _

/-- The verification finds no blockers, at once or after another observation. -/
theorem unblocked_stepVerifying_iff (hs : r.state = .verifying) :
    (e.stepVerifying r now).Unblocked r.id ↔
      r.revision = u64Max ∨ (e.evaluateVerification r now).1 = [] ∨
        (e.policy.reobserveRemovalEvidence = true ∧ e.removalIsReobservable r = true ∧
          (e.recordRemovalEvidence r now).2 = .ok () ∧
          ((e.recordRemovalEvidence r now).1.evaluateVerification r now).1 = []) := by
  -- The end of the step, with what the last evaluation found.
  have hend : ∀ (e : Engine) (found : List Blocker × EvidenceSeq),
      (found.1 = [] → e.evaluateVerification r now = found) →
      ((if ¬ found.1.isEmpty then e.enterBlocked r found.1 now "verification-blocked"
        else e.completeDrain r found.2 now).Unblocked r.id ↔
        r.revision = u64Max ∨ found.1 = []) := by
    intro e found hfound
    split_ifs with hblocked
    · have hnone := List.isEmpty_iff.mp hblocked
      refine iff_of_true (unblocked_completeDrain hs ?_) (Or.inr hnone)
      rw [hfound hnone, ← hnone]
    · rw [unblocked_enterBlocked_iff (by rw [hs]; rfl) (by rw [hs]; decide)]
      simp_all
  simp only [stepVerifying]
  by_cases hagain : ¬ (e.evaluateVerification r now).1.isEmpty = true ∧
      e.policy.reobserveRemovalEvidence = true ∧ e.removalIsReobservable r = true
  · rw [if_pos hagain]
    have hne : (e.evaluateVerification r now).1 ≠ [] := fun h => hagain.1 (List.isEmpty_iff.mpr h)
    rcases hrec : e.recordRemovalEvidence r now with ⟨e₁, err | u⟩
    · rw [hend e₁ _ (fun h => absurd h hne)]
      simp [hne]
    · rw [hend e₁ _ (fun _ => rfl)]
      simp [hne, hagain.2]
  · rw [if_neg hagain, hend e _ (fun _ => rfl)]
    simp only [not_and] at hagain
    by_cases hnone : (e.evaluateVerification r now).1 = []
    · simp [hnone]
    · simpa [hnone] using fun h h' => absurd h' (hagain (by simpa using hnone) h)

theorem unblocked_stepRestoring (hd : e.drain r.id = some r) (hs : r.state = .restoring) :
    (e.stepRestoring r now).Unblocked r.id := by
  have hne : r.state ≠ .blocked := by rw [hs]; decide
  simp only [stepRestoring]
  obtain ⟨topology, -, heq⟩ := restoring_topology e r
  rw [heq]
  split_ifs with hsettle
  · exact unblocked_of_drain hd hne
  · split
    · -- The revision is exhausted, so the drain cannot be blocked either.
      rename_i e' hmove
      obtain ⟨⟨err, ht⟩, -⟩ := applyTransition_none hmove
      have hrev := DrainRecord.revision_of_transition_error ht
        (by simp [hs, isLegalDrainTransition])
      rw [unblocked_iff_of_world (enterBlocked_toWorld _ _ _ _ _) (r.hold_barred _ _ _).id,
        DrainRecord.barred_exhausted hrev]
      exact hne
    · rename_i e' r' hmove
      rcases DrainRecord.transition_ok (applyTransition_some hmove).1 with
        ⟨hsame, -⟩ | ⟨-, -, -, rfl⟩
      · simp [hs] at hsame
      · exact unblocked_of_world (storeDrain_toWorld e' _) rfl
          (by simp [DrainRecord.markRestored, DrainRecord.moved])

/-! ### The switch -/

/-- A step does not block a drain its evaluation has cleared, if the fence can be closed
and the removal recorded. -/
theorem unblocked_stepActive_iff (hd : e.drain r.id = some r) (hs : r.state ≠ .blocked)
    (hclear : e.evaluateState r r.state now = []) :
    (e.stepActive r now).1.Unblocked r.id ↔ r.revision = u64Max ∨
      (r.state = .validating →
        ∃ generation, (e.fence.close r.target r.id now r.reason).2 = .ok generation) ∧
      (r.state = .quiescing → e.retirable r now = [] →
        (e.recordRemovalEvidence r now).2 = .ok ()) := by
  unfold stepActive
  cases hstate : r.state with
  | validating =>
    rw [hstate] at hclear
    have hclear : e.evaluateStart r now = [] := hclear
    rw [unblocked_stepValidating_iff hstate]
    simp [hclear]
  | quiescing =>
    rw [hstate] at hclear
    have hclear : e.evaluateQuiescence r now = [] := hclear
    have hstill : (e.outstandingFor r.target).any isMoving = false := by
      simpa using not_moving_of_quiet hclear
    rw [unblocked_stepQuiescing_iff hd hstate]
    simp [hclear, hstill]
  | blocked => exact absurd hstate hs
  | _ =>
    rw [hstate] at hclear
    refine iff_of_true ?_ (Or.inr (by simp))
    first
      | exact unblocked_of_drain hd hs
      | exact unblocked_stepRequested hd hstate
      | exact unblocked_stepAdmissionClosed hd hstate
      | exact (unblocked_stepEvacuating_iff hd hstate).mpr (Or.inr fun _ => hclear)
      | exact (unblocked_stepVerifying_iff hstate).mpr (Or.inr (Or.inl hclear))
      | exact unblocked_stepRestoring hd hstate

end Building

/-! ### Resuming -/

section Resuming

variable {e : Engine} {r : DrainRecord} {now : TimePoint}

/-- A drain that left `Blocked` had no blockers, and stands where it was blocked. -/
theorem resumeBlocked_some (hd : e.drain r.id = some r) (hb : r.state = .blocked)
    (h : e.resumeBlocked r now = (e₁, some r₁)) (hleft : r₁.state ≠ .blocked) :
    (e.toWorld.withEvidence (e.revalidationLedger r now)).evaluateState r r.phase now = [] ∧
      r.revision ≠ u64Max ∧ isLegalDrainTransition .blocked r.phase = true ∧
      r₁ = r.moved r.phase now "blockers cleared" ∧
      e₁.toWorld = (e.toWorld.withEvidence (e.revalidationLedger r now)).withDrain r₁ := by
  obtain ⟨_, r', rfl, hworld, hcase⟩ := resumeBlocked_cases hd hb now
  rw [h] at hworld hcase
  rcases hcase with ⟨-, hnone, -⟩ | ⟨hclear, hsome, rfl⟩
  · cases hnone
  · cases ht : r.transition r.phase now "blockers cleared" with
    | error err =>
      rw [ht] at hsome
      cases hsome
    | ok q =>
      rw [ht] at hsome
      cases hsome
      rw [DrainRecord.tried_of_ok ht] at hworld
      rcases DrainRecord.transition_ok ht with ⟨-, rfl⟩ | ⟨-, hlegal, hrev, rfl⟩
      · exact absurd hb hleft
      · exact ⟨hclear, hrev, hb ▸ hlegal, rfl, hworld⟩

/-- A drain without blockers leaves `Blocked`, unless its revision is exhausted. -/
theorem resumeBlocked_of_clear (hd : e.drain r.id = some r) (hb : r.state = .blocked)
    (hrev : r.revision ≠ u64Max) (hlegal : isLegalDrainTransition .blocked r.phase = true)
    (hphase : r.phase ≠ .blocked)
    (hclear : (e.toWorld.withEvidence (e.revalidationLedger r now)).evaluateState r r.phase now =
      []) :
    ∃ e₁, e.resumeBlocked r now = (e₁, some (r.moved r.phase now "blockers cleared")) ∧
      e₁.toWorld = (e.toWorld.withEvidence (e.revalidationLedger r now)).withDrain
        (r.moved r.phase now "blockers cleared") := by
  have ht : r.transition r.phase now "blockers cleared" =
      .ok (r.moved r.phase now "blockers cleared") := by
    rw [DrainRecord.transition, hb, if_neg hphase, if_neg (not_not.mpr hlegal), if_neg hrev]
  obtain ⟨_, r', rfl, hworld, hcase⟩ := resumeBlocked_cases hd hb now
  rcases hcase with ⟨hne, -⟩ | ⟨-, hsome, rfl⟩
  · exact absurd hclear hne
  · rw [ht] at hsome
    rw [DrainRecord.tried_of_ok ht] at hworld
    exact ⟨_, Prod.ext rfl hsome, hworld⟩

/-- A drain that is not resumed stays blocked. -/
theorem resumeBlocked_none (hd : e.drain r.id = some r) (hb : r.state = .blocked)
    (h : e.resumeBlocked r now = (e₁, none)) : ¬ e₁.Unblocked r.id := by
  obtain ⟨_, r', rfl, hworld, hcase⟩ := resumeBlocked_cases hd hb now
  rw [h] at hworld hcase
  rcases hcase with ⟨-, -, hold, hstays⟩ | ⟨-, hnone, rfl⟩
  · rw [unblocked_iff_of_world hworld hold.id]
    exact not_not.mpr hstays
  · rw [unblocked_iff_of_world hworld DrainRecord.id_tried, DrainRecord.tried, ← hnone]
    exact not_not.mpr hb

end Resuming

/-! ### The turn of a blocked drain -/

theorem turn_of_drain {e : Engine} {r : DrainRecord} (hd : e.drain r.id = some r)
    (hs : isSettled r.state = false) (now : TimePoint) : e.turn r.id now = e.stepDrain r now := by
  simp only [turn, hd, hs]
  rfl

/-- The turn of a resumed drain is the step of the state it was resumed to. -/
theorem turn_of_resumed {e : Engine} {r : DrainRecord} {now : TimePoint}
    (hd : e.drain r.id = some r) (hb : r.state = .blocked)
    (h : e.resumeBlocked r now = (e₁, some r₁)) : e.turn r.id now = e₁.stepActive r₁ now := by
  rw [turn_of_drain hd (by rw [hb]; rfl)]
  simp only [stepDrain, if_pos hb, h]

/-- A drain resumed to `Quiescing` finds what it found while it was blocked. -/
theorem resumed_quiescing {e : Engine} {r : DrainRecord} {now : TimePoint}
    (hphase : r.phase = .quiescing)
    (hworld : e₁.toWorld = (e.toWorld.withEvidence (e.revalidationLedger r now)).withDrain
      (r.moved r.phase now "blockers cleared")) :
    e₁.evaluateQuiescence (r.moved r.phase now "blockers cleared") now =
        e.evaluateQuiescence r now ∧
      e₁.retirable (r.moved r.phase now "blockers cleared") now = e.retirable r now ∧
      (e₁.recordRemovalEvidence (r.moved r.phase now "blockers cleared") now).2 =
        (e.recordRemovalEvidence r now).2 := by
  have halike : r.Alike (r.moved r.phase now "blockers cleared") :=
    r.alike_moved (by rw [hphase]; decide) now _
  rw [revalidationLedger_of_ne (by rw [hphase]; decide)] at hworld
  have hpeers : Peers r.id e.toWorld e₁.toWorld := by
    rw [hworld]
    exact peers_withDrain e.toWorld (r.moved r.phase now "blockers cleared")
  exact ⟨evaluateState_congr hpeers halike .quiescing now, retirable_congr hpeers halike now,
    (recordRemovalEvidence_congr hpeers.evidence hpeers.authority hpeers.policy halike now).2⟩

/-- The turn of a drain without blockers ends outside `Blocked`, if the fence can be closed
and the removal observed, or the drain cannot be blocked again. -/
theorem unblocked_iff_of_clear {e : Engine} {r : DrainRecord} {now : TimePoint}
    (hd : e.drain r.id = some r) (hb : r.state = .blocked) (hrev : r.revision ≠ u64Max)
    (hlegal : isLegalDrainTransition .blocked r.phase = true) (hphase : r.phase ≠ .blocked)
    (hclear : (e.toWorld.withEvidence (e.revalidationLedger r now)).evaluateState r r.phase now =
      []) :
    (e.turn r.id now).1.Unblocked r.id ↔ r.revision + 1 = u64Max ∨
      (r.phase = .validating →
        ∃ generation, (e.fence.close r.target r.id now r.reason).2 = .ok generation) ∧
      (r.phase = .quiescing → e.retirable r now = [] →
        (e.recordRemovalEvidence r now).2 = .ok ()) := by
  obtain ⟨e₁, hres, hworld⟩ := resumeBlocked_of_clear hd hb hrev hlegal hphase hclear
  rw [turn_of_resumed hd hb hres]
  have hd₁ : e₁.drain r.id = some (r.moved r.phase now "blockers cleared") := by
    rw [hworld, drain_withDrain]
    exact if_pos rfl
  -- The evaluation after the record has changed.
  have hclear₁ : e₁.evaluateState (r.moved r.phase now "blockers cleared") r.phase now = [] := by
    rw [hworld]
    by_cases hclosed : r.phase = .admissionClosed
    · rw [hclosed]
      rfl
    · have hpeers : Peers r.id _ _ := peers_withDrain
        (e.toWorld.withEvidence (e.revalidationLedger r now)) (r.moved r.phase now "blockers cleared")
      rw [evaluateState_congr hpeers (r.alike_moved hclosed now "blockers cleared"), hclear]
  refine (unblocked_stepActive_iff (r := r.moved r.phase now "blockers cleared") hd₁ hphase
    hclear₁).trans (or_congr Iff.rfl (and_congr (imp_congr_right fun _ => ?_)
      (imp_congr_right fun hquiesc => ?_)))
  · rw [hworld]
    rfl
  · obtain ⟨-, hretirable, hsame⟩ := resumed_quiescing hquiesc hworld
    rw [hretirable, hsame]

/-- A blocked drain that is outside `Blocked` after its turn was resumed. -/
theorem clear_of_unblocked {e : Engine} {r : DrainRecord} {now : TimePoint}
    (hd : e.drain r.id = some r) (hb : r.state = .blocked)
    (h : (e.turn r.id now).1.Unblocked r.id) :
    r.revision ≠ u64Max ∧
      (e.toWorld.withEvidence (e.revalidationLedger r now)).evaluateState r r.phase now = [] := by
  rcases hres : e.resumeBlocked r now with ⟨e₁, _ | r₁⟩
  · refine absurd ?_ (resumeBlocked_none hd hb hres)
    rw [turn_of_drain hd (by rw [hb]; rfl)] at h
    simpa only [stepDrain, if_pos hb, hres] using h
  · have hleft : r₁.state ≠ .blocked := by
      obtain ⟨r', evidence, held, hworld, heq⟩ := resumeBlocked_held e now hd hb
      rw [hres] at hworld heq
      obtain rfl := heq r₁ rfl
      rw [turn_of_resumed hd hb hres] at h
      intro hblocked
      refine h r₁ ?_ hblocked
      simp only [stepActive, hblocked]
      rw [hworld, drain_withDrain, if_pos held.hold.id]
    obtain ⟨hclear, hrev, -⟩ := resumeBlocked_some hd hb hres hleft
    exact ⟨hrev, hclear⟩

/-- After the turn of a blocked drain the drain is not blocked if the evaluation, with the
ledger of the turn, finds no blockers, and the step it goes on with finds a place in the
fence or in the ledger. -/
theorem unblocked_turn_iff {e : Engine} {r : DrainRecord} {now : TimePoint}
    (hd : e.drain r.id = some r) (hb : r.state = .blocked)
    (hlegal : isLegalDrainTransition .blocked r.phase = true) (hphase : r.phase ≠ .blocked) :
    (e.turn r.id now).1.Unblocked r.id ↔ r.revision ≠ u64Max ∧
      (e.toWorld.withEvidence (e.revalidationLedger r now)).evaluateState r r.phase now = [] ∧
      (r.revision + 1 = u64Max ∨
        (r.phase = .validating →
          ∃ generation, (e.fence.close r.target r.id now r.reason).2 = .ok generation) ∧
        (r.phase = .quiescing → e.retirable r now = [] →
          (e.recordRemovalEvidence r now).2 = .ok ())) := by
  constructor
  · intro h
    obtain ⟨hrev, hclear⟩ := clear_of_unblocked hd hb h
    exact ⟨hrev, hclear, (unblocked_iff_of_clear hd hb hrev hlegal hphase hclear).mp h⟩
  · rintro ⟨hrev, hclear, hrest⟩
    exact (unblocked_iff_of_clear hd hb hrev hlegal hphase hclear).mpr hrest

/-- The turn of a drain that left `Blocked` ends outside `Blocked`, if the fence can be
closed and the removal observed. -/
theorem unblocked_of_resumed {e : Engine} {r : DrainRecord} {now : TimePoint}
    (hd : e.drain r.id = some r) (hb : r.state = .blocked)
    (hresumed : e.resumeBlocked r now = (e₁, some r₁)) (hleft : r₁.state ≠ .blocked)
    (hclose : r.phase = .validating →
      ∃ generation, (e.fence.close r.target r.id now r.reason).2 = .ok generation)
    (hrecord : r.phase = .quiescing → e.retirable r now = [] →
      (e.recordRemovalEvidence r now).2 = .ok ()) : (e.turn r.id now).1.Unblocked r.id := by
  obtain ⟨hclear, hrev, hlegal, rfl, -⟩ := resumeBlocked_some hd hb hresumed hleft
  exact (unblocked_iff_of_clear hd hb hrev hlegal hleft hclear).mpr (Or.inr ⟨hclose, hrecord⟩)

/-- A pass blocks a drain exactly if the drain's own turn does. -/
theorem unblocked_advance_iff {e : Engine} {now : TimePoint} {id : DrainId}
    {pre post : List Event} (hpass : e.passTurns now = pre ++ .turn id now :: post) :
    (e.advance now).1.Unblocked id ↔ ((run fire e pre).turn id now).1.Unblocked id := by
  have hothers := passTurns_split hpass
  have hsame := (run_others (fun ev hev => hothers ev (List.mem_append_right _ hev))
    ((run fire e pre).turn id now).1).1
  rw [advance_eq_run, hpass, run_append]
  exact ⟨fun h r hr => h r (hsame.trans hr), fun h r hr => h r (hsame.symm.trans hr)⟩

end Engine

end DrainFabric
