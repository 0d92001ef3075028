import DrainFabric.Engine.Founding

/-!
# What one operation can do

The inversion of the public operations: `apply_effect` puts every operation into
one of the cases of `CallEffect`. Most operations are `Quiet`, that is they leave
drains, fence, obligations and resources alone.
-/

namespace DrainFabric

open Lib

variable {w : World}

/-- The targets an operation asks to drain. -/
def Call.targets : Call → List DrainTarget
  | requestDrainSet request _ | requestDrain request _ => request.targets
  | _ => []

namespace World

/-- Drains, fence, obligations and resources are as they were. -/
structure Quiet (w w' : World) : Prop where
  drains : w'.drains = w.drains
  fence : w'.fence = w.fence
  obligations : w'.obligations.obligations = w.obligations.obligations
  resources : w'.topology.resources = w.topology.resources

theorem Quiet.refl (w : World) : Quiet w w := ⟨rfl, rfl, rfl, rfl⟩

/-- New drains were requested: one per target, and each target was free. -/
structure Spawned (w : World) (targets : List DrainTarget) (w' : World) : Prop where
  kept : ∀ id r, w.drain id = some r → w'.drain id = some r
  fresh : ∀ id r, w'.drain id = some r → w.drain id = none →
    r.target ∈ targets ∧ r.state = .requested ∧ r.generation = 0 ∧ r.restoreGeneration = 0 ∧
      r.restoredAt = 0
  distinct : ∀ id r id' r', w'.drain id = some r → w.drain id = none →
    w'.drain id' = some r' → w.drain id' = none → r.target = r'.target → id = id'
  fence : w'.fence = w.fence
  obligations : w'.obligations = w.obligations
  topology : w'.topology = w.topology

/-- The drains that a request creates. -/
theorem spawned_withDrains (w : World) (request : DrainRequest) (now : TimePoint)
    {targets : List DrainTarget} (hnodup : targets.Nodup) :
    Spawned w targets (w.withDrains request targets now) := by
  -- A drain that is new is one of the list.
  have hnew : ∀ id r, (w.withDrains request targets now).drain id = some r → w.drain id = none →
      r ∈ newDrains request (w.setHighWater + 1) now w.drainHighWater targets ∧ r.id = id := by
    intro id r hr hnone
    rcases drain_withDrains_cases hr with hold | hmem
    · rw [hnone] at hold
      cases hold
    · exact hmem
  refine ⟨fun id r hr => drain_withDrains_old _ _ _ hr, fun id r hr hnone => ?_,
    fun id r id' r' hr hnone hr' hnone' htarget => ?_, rfl, rfl, rfl⟩
  · obtain ⟨-, -, hmem, heq⟩ := mem_newDrains (hnew id r hr hnone).1
    rw [heq]
    exact ⟨hmem, rfl, rfl, rfl, rfl⟩
  · obtain ⟨hmem, rfl⟩ := hnew id r hr hnone
    obtain ⟨hmem', rfl⟩ := hnew id' r' hr' hnone'
    rw [← newDrains_targets request (w.setHighWater + 1) now w.drainHighWater targets] at hnodup
    rw [List.inj_on_of_nodup_map hnodup hmem hmem' htarget]

/-- A target is free once every drain of it was cancelled and restored. -/
def IsFree (w : World) (target : DrainTarget) : Prop :=
  ∀ id r, w.drain id = some r → r.target = target → r.state = .cancelled ∧ r.restoredAt ≠ 0

/-- How an operation can end. -/
inductive CallEffect (w : World) : Call → World → Prop
  | quiet {c : Call} {w' : World} : Quiet w w' → CallEffect w c w'
  /-- A record is blocked, resumed or annotated. -/
  | held {c : Call} {w₁ : World} {now : TimePoint} {r r' : DrainRecord} :
      Quiet w w₁ → w.drain r.id = some r → Held now r w₁ r' w₁.evidence →
      CallEffect w c (w₁.withDrain r')
  | resourceAdded {node : ResourceNode} {now : TimePoint} {topology : Topology} :
      w.topology.resource node.id = none →
      topology.resources = w.topology.resources.put node →
      CallEffect w (.addResource node now) (w.withTopology topology)
  | statusReported {id : ResourceId} {status : ResourceStatus} {now : TimePoint}
      {topology : Topology} :
      w.topology.setStatus id status = .ok topology →
      CallEffect w (.reportResourceStatus id status now) (w.withTopology topology)
  | admitted {draft o : Obligation} {presented : Generation} {authority : AuthorityId}
      {now : TimePoint} {obligations : ObligationTable} :
      (∀ target ∈ draft.dependencies, w.fence.checkAdmission target presented = .ok ()) →
      w.obligations.insert { draft with admittedAt := now, admissionGeneration := presented } =
        (obligations, .ok o) →
      CallEffect w (.admitObligation draft presented authority now)
        (w.withObligations obligations)
  | reported {report : ObligationReport} {now : TimePoint} {o applied : Obligation}
      {attempt : Attempt} {note : String} :
      w.obligations.find report.obligation = some o → Engine.reportFence w report = .ok () →
      o.applyState report.expectedRevision report.next report.evidence now = .ok applied →
      CallEffect w (.reportObligation report now)
        (w.withObligations (w.obligations.store { applied with attempt, note }))
  | requested {c : Call} {targets : List DrainTarget} {w' : World} :
      (∀ target ∈ targets, target ∈ c.targets ∧ w.IsFree target) → Spawned w targets w' →
      CallEffect w c w'
  | cancelled {id : DrainId} {authority : AuthorityId} {reason : String} {now : TimePoint}
      {r : DrainRecord} (detail : String) :
      w.drain id = some r → r.state ≠ .drained → r.state ≠ .cancelled →
      CallEffect w (.cancelDrain id authority reason now)
        (w.withDrain (r.moved .cancelled now detail))
  | restorationStarted {id : DrainId} {authority : AuthorityId} {reason : String}
      {now : TimePoint} {r : DrainRecord} {fence : AdmissionFence} {reopened : Generation}
      (detail : String) :
      w.drain id = some r → isSettled r.state = true →
      ¬ (r.state = .cancelled ∧ r.restoredAt ≠ 0) →
      Engine.reopenFence w.fence r reason now = (fence, .ok reopened) →
      CallEffect w (.restoreDrain id authority reason now)
        ((w.withFence fence).withDrain
          { r.moved .restoring now detail with restoreGeneration := reopened })
  /-- The fence was touched, but the record could not follow. -/
  | restorationFailed {id : DrainId} {authority : AuthorityId} {reason : String}
      {now : TimePoint} {r : DrainRecord} {fence : AdmissionFence} {result : Result Generation} :
      w.drain id = some r → isSettled r.state = true →
      ¬ (r.state = .cancelled ∧ r.restoredAt ≠ 0) →
      Engine.reopenFence w.fence r reason now = (fence, result) →
      ((∃ err, result = .error err) ∨ r.revision = u64Max) →
      CallEffect w (.restoreDrain id authority reason now) (w.withFence fence)

def withExceptions (w : World) (exceptions : OrdMap DrainId (List ExceptionGrant)) : World :=
  { w with exceptions }

/-- The grant is appended to those of its drain. -/
def withGrant (w : World) (grant : ExceptionGrant) : World :=
  { w with
    exceptionHighWater := grant.sequence
    exceptions := OrdMap.set w.exceptions grant.drain
      ((OrdMap.get? w.exceptions grant.drain).getD [] ++ [grant]) }

/-- The drain that `restore_drain` reopens admission for. -/
structure Restorable (w : World) (id : DrainId) (authority : AuthorityId) (now : TimePoint)
    (r : DrainRecord) : Prop where
  authorized : w.requireAuthority authority now = .ok ()
  found : w.drain id = some r
  settled : isSettled r.state = true
  unrestored : ¬ (r.state = .cancelled ∧ r.restoredAt ≠ 0)

end World

namespace Engine

open World

/-! ### Quiet operations -/

section

variable {e : Engine} {c : Call}

theorem quiet_self : CallEffect e.toWorld c e.toWorld := .quiet (.refl _)

theorem effect_setPolicy (policy : DrainPolicy) (now : TimePoint) :
    CallEffect e.toWorld c (e.setPolicy policy now).1.toWorld := by
  simp only [setPolicy]
  cases policy.validate with
  | error err => exact quiet_self
  | ok u => exact .quiet ⟨rfl, rfl, rfl, rfl⟩

theorem effect_installIncarnation (incarnation : IncarnationId) (now : TimePoint) :
    CallEffect e.toWorld c (e.installIncarnation incarnation now).1.toWorld := by
  simp only [installIncarnation]
  cases e.authority.installIncarnation incarnation with
  | error err => exact quiet_self
  | ok authority => exact .quiet ⟨rfl, rfl, rfl, rfl⟩

theorem effect_installAuthorityLine (incarnation : IncarnationId) (epoch : Epoch)
    (now : TimePoint) (reason : String) :
    CallEffect e.toWorld c (e.installAuthorityLine incarnation epoch now reason).1.toWorld := by
  simp only [installAuthorityLine]
  cases e.authority.installLine incarnation epoch now reason with
  | error err => exact quiet_self
  | ok authority => exact .quiet ⟨rfl, rfl, rfl, rfl⟩

theorem effect_beginNewEpoch (incarnation : IncarnationId) (now : TimePoint) (reason : String) :
    CallEffect e.toWorld c (e.beginNewEpoch incarnation now reason).1.toWorld := by
  simp only [beginNewEpoch]
  cases incrementChecked e.authority.epoch with
  | none => exact quiet_self
  | some epoch => exact effect_installAuthorityLine incarnation epoch now reason

theorem effect_issueAuthority (scope : DomainId) (validity : Duration) (now : TimePoint) :
    CallEffect e.toWorld c (e.issueAuthority scope validity now).1.toWorld := by
  simp only [issueAuthority]
  rcases e.authority.issue scope now validity with err | ⟨authority, token⟩
  · exact quiet_self
  · exact .quiet ⟨rfl, rfl, rfl, rfl⟩

theorem effect_revokeAuthority (id : AuthorityId) (reason : String) (now : TimePoint) :
    CallEffect e.toWorld c (e.revokeAuthority id reason now).1.toWorld := by
  simp only [revokeAuthority]
  cases e.authority.revoke id now reason with
  | error err => exact quiet_self
  | ok authority => exact .quiet ⟨rfl, rfl, rfl, rfl⟩

/-- An addition to the topology that leaves the resources alone. -/
theorem effect_extendTopology {added : Result Topology}
    (h : ∀ topology, added = .ok topology → topology.resources = e.topology.resources)
    (action : String) (now : TimePoint) :
    CallEffect e.toWorld c (e.extendTopology added action now).1.toWorld := by
  cases added with
  | error err => exact quiet_self
  | ok topology => exact .quiet ⟨rfl, rfl, rfl, h topology rfl⟩

theorem effect_recordEvidence (draft : Evidence) (now : TimePoint) :
    CallEffect e.toWorld c (e.recordEvidence draft now).1.toWorld := by
  simp only [recordEvidence]
  split <;> exact .quiet ⟨rfl, rfl, rfl, rfl⟩

theorem effect_attestEvidence (key : EvidenceKey) (seq : EvidenceSeq) (now : TimePoint) :
    CallEffect e.toWorld c (e.attestEvidence key seq now).1.toWorld := by
  simp only [attestEvidence]
  cases e.evidence.attest key seq (e.evidenceFence now) with
  | error err => exact quiet_self
  | ok evidence => exact .quiet ⟨rfl, rfl, rfl, rfl⟩

end

/-! ### Resources and obligations -/

section

variable (e : Engine)

theorem effect_addResource (node : ResourceNode) (now : TimePoint) :
    CallEffect e.toWorld (.addResource node now) (e.addResource node now).1.toWorld := by
  simp only [addResource, extendTopology]
  cases hadd : e.topology.addResource node with
  | error err => exact quiet_self
  | ok topology =>
    obtain ⟨-, -, hfree, rfl⟩ := Topology.addResource_eq_ok.mp hadd
    exact .resourceAdded hfree rfl

theorem effect_reportResourceStatus (id : ResourceId) (status : ResourceStatus) (now : TimePoint) :
    CallEffect e.toWorld (.reportResourceStatus id status now)
      (e.reportResourceStatus id status now).1.toWorld := by
  simp only [reportResourceStatus]
  cases hset : e.topology.setStatus id status with
  | error err => exact quiet_self
  | ok topology => exact .statusReported hset

/-- No dependency is refused: every one of them passed the fence. -/
theorem refusedDependency_none {presented : Generation} {targets : List DrainTarget}
    (h : refusedDependency w presented targets = none) :
    ∀ target ∈ targets, w.fence.checkAdmission target presented = .ok () := by
  induction targets with
  | nil => simp
  | cons target rest ih =>
    simp only [refusedDependency] at h
    cases hcheck : w.fence.checkAdmission target presented with
    | error err => simp [hcheck] at h
    | ok u =>
      simp only [hcheck] at h
      intro other hother
      rcases List.mem_cons.mp hother with rfl | hother
      · exact hcheck
      · exact ih h other hother

/-- An obligation is refused, or it is handed to the table. -/
theorem admitObligation_cases (e : Engine) (draft : Obligation) (presented : Generation)
    (authority : AuthorityId) (now : TimePoint) :
    (Noted e e.toWorld (e.admitObligation draft presented authority now).1 ∧
        (e.admitObligation draft presented authority now).2.isOk = false) ∨
      (draft.dependencies.val ≠ [] ∧
        draft.dependencies.val.length ≤ maxDependenciesPerObligation ∧
        (∀ target ∈ draft.dependencies, e.fence.checkAdmission target presented = .ok ()) ∧
        Noted e (e.withObligations (e.obligations.insert
            { draft with admittedAt := now, admissionGeneration := presented }).1)
          (e.admitObligation draft presented authority now).1 ∧
        (e.admitObligation draft presented authority now).2 = (e.obligations.insert
            { draft with admittedAt := now, admissionGeneration := presented }).2) := by
  simp only [admitObligation]
  cases e.requireAuthority authority now with
  | error err => exact Or.inl ⟨.silent, rfl⟩
  | ok u =>
    dsimp only
    split_ifs with hnone hmany
    · exact Or.inl ⟨.silent, rfl⟩
    · exact Or.inl ⟨.silent, rfl⟩
    · cases href : refusedDependency e.toWorld presented draft.dependencies.val with
      | some refused => exact Or.inl ⟨.decided rfl, rfl⟩
      | none =>
        refine Or.inr ⟨fun h => hnone (by rw [h]; rfl), Nat.not_lt.mp hmany,
          refusedDependency_none href, ?_⟩
        rcases e.obligations.insert
          { draft with admittedAt := now, admissionGeneration := presented } with
          ⟨obligations, err | o⟩
        · exact ⟨.silent, rfl⟩
        · exact ⟨.decided rfl, rfl⟩

theorem effect_admitObligation (draft : Obligation) (presented : Generation)
    (authority : AuthorityId) (now : TimePoint) :
    CallEffect e.toWorld (.admitObligation draft presented authority now)
      (e.admitObligation draft presented authority now).1.toWorld := by
  rcases admitObligation_cases e draft presented authority now with
    ⟨hnoted, -⟩ | ⟨-, -, hopen, hnoted, -⟩
  · rw [hnoted.toWorld]
    exact quiet_self
  · rw [hnoted.toWorld]
    rcases hins : e.obligations.insert
      { draft with admittedAt := now, admissionGeneration := presented } with ⟨obligations, err | o⟩
    · exact .quiet ⟨rfl, rfl, ObligationTable.insert_error hins, rfl⟩
    · exact .admitted hopen hins

theorem effect_reportObligation (report : ObligationReport) (now : TimePoint) :
    CallEffect e.toWorld (.reportObligation report now)
      (e.reportObligation report now).1.toWorld := by
  simp only [reportObligation]
  cases hfind : e.obligations.find report.obligation with
  | none => exact quiet_self
  | some o =>
    cases hfence : reportFence e.toWorld report with
    | error err => exact quiet_self
    | ok u =>
      cases happly : o.applyState report.expectedRevision report.next report.evidence now with
      | error err =>
        simp only [happly]
        exact quiet_self
      | ok applied =>
        simp only [happly]
        exact .reported hfind hfence happly

end

/-! ### Requesting drains -/

/-- A target that no drain owns is free. -/
theorem ownedTarget_none {targets : List DrainTarget} (h : ownedTarget w targets = none) :
    ∀ target ∈ targets, w.IsFree target := by
  induction targets with
  | nil => simp
  | cons target rest ih =>
    simp only [ownedTarget] at h
    split at h
    · cases h
    · rename_i hfind
      intro other hother
      rcases List.mem_cons.mp hother with rfl | hother
      · intro id r hr htarget
        have hnot := List.find?_eq_none.mp hfind r (Table.mem_of_find? hr)
        simpa [htarget] using hnot
      · exact ih h other hother

theorem effect_requestDrainSet {c : Call} (e : Engine) (request : DrainRequest) (now : TimePoint)
    (hc : c.targets = request.targets) :
    CallEffect e.toWorld c (e.requestDrainSet request now).1.toWorld := by
  rcases requestDrainSet_cases e request now with ⟨hsame, -⟩ | ⟨targets, h⟩
  · rw [hsame]
    exact quiet_self
  rw [requestDrainSet_of_admissible h]
  obtain ⟨hnodup, hsub⟩ := normalizeTargets_ok h.normalized
  have hfree : ∀ target ∈ targets, target ∈ c.targets ∧ e.toWorld.IsFree target :=
    fun target ht => ⟨hc ▸ (hsub target).mp ht, ownedTarget_none h.free target ht⟩
  rcases createDrainSet_cases h with
    ⟨-, hsame, -⟩ | ⟨-, -, ⟨made, rest, rfl, -, hworld⟩, -⟩ | ⟨-, -, hworld, -⟩
  · rw [hsame]
    exact quiet_self
  · rw [hworld]
    exact .requested (fun target ht => hfree target (List.mem_append_left rest ht))
      (spawned_withDrains _ request now (List.Nodup.of_append_left hnodup))
  · have hnew := spawned_withDrains e.toWorld request now hnodup
    rw [hworld]
    exact .requested hfree ⟨hnew.kept, hnew.fresh, hnew.distinct, rfl, rfl, rfl⟩

theorem effect_requestDrain (e : Engine) (request : DrainRequest) (now : TimePoint) :
    CallEffect e.toWorld (.requestDrain request now) (e.requestDrain request now).1.toWorld := by
  rw [(requestDrain_fst e request now).1]
  exact effect_requestDrainSet e request now rfl

/-! ### Moving drains -/

/-- A drain is cancelled, or nothing is written. -/
theorem cancelDrain_cases (e : Engine) (id : DrainId) (authority : AuthorityId) (reason : String)
    (now : TimePoint) :
    ((e.cancelDrain id authority reason now).1.toWorld = e.toWorld ∧
        ((e.cancelDrain id authority reason now).2.isOk = true →
          ∃ r, e.drain id = some r ∧ r.state = .cancelled)) ∨
      ∃ r, e.drain id = some r ∧ r.state ≠ .drained ∧ r.state ≠ .cancelled ∧
        (e.cancelDrain id authority reason now).1.toWorld =
          e.withDrain (r.moved .cancelled now (truncate reason)) := by
  simp only [cancelDrain]
  cases e.requireAuthority authority now with
  | error err => exact Or.inl ⟨rfl, fun h => by cases h⟩
  | ok u =>
    cases hr : e.drain id with
    | none => exact Or.inl ⟨rfl, fun h => by cases h⟩
    | some r =>
      dsimp only
      split_ifs with hdrained hcancelled
      · exact Or.inl ⟨rfl, fun h => by cases h⟩
      · exact Or.inl ⟨rfl, fun _ => ⟨r, rfl, hcancelled⟩⟩
      · split
        · rename_i e' r' hmove
          obtain ⟨ht, hworld⟩ := applyTransition_some hmove
          rcases DrainRecord.transition_ok ht with ⟨hsame, -⟩ | ⟨-, -, -, rfl⟩
          · exact absurd hsame.symm hcancelled
          · exact Or.inr ⟨r, rfl, hdrained, hcancelled, hworld⟩
        · rename_i hmove
          exact Or.inl ⟨(applyTransition_none hmove).2, fun h => by cases h⟩

theorem effect_cancelDrain (e : Engine) (id : DrainId) (authority : AuthorityId) (reason : String)
    (now : TimePoint) :
    CallEffect e.toWorld (.cancelDrain id authority reason now)
      (e.cancelDrain id authority reason now).1.toWorld := by
  rcases cancelDrain_cases e id authority reason now with
    ⟨hsame, -⟩ | ⟨r, hr, hdrained, hcancelled, hworld⟩
  · rw [hsame]
    exact quiet_self
  · rw [hworld]
    exact .cancelled _ hr hdrained hcancelled

theorem isLegal_restoring {state : DrainState} (h : isSettled state = true) :
    isLegalDrainTransition state .restoring = true := by
  cases state <;> first | rfl | simp [isSettled] at h

theorem not_restoring_of_settled {state : DrainState} (h : isSettled state = true) :
    state ≠ .restoring := by
  rintro rfl
  cases h

section

variable {e : Engine} {id : DrainId} {authority : AuthorityId} {now : TimePoint} {r : DrainRecord}

/-- Nothing to restore: nothing is written, and a call is accepted only when the drain is
being restored or restored already, and asks for nothing. -/
theorem restoreDrain_of_not_restorable (reason : String)
    (h : ¬ ∃ r, e.Restorable id authority now r) :
    (e.restoreDrain id authority reason now).1 = e ∧
      ((∃ err, (e.restoreDrain id authority reason now).2 = .error err) ∨
        (e.restoreDrain id authority reason now).2 = .ok {} ∧
          ∃ r, e.drain id = some r ∧
            (r.state = .restoring ∨ r.state = .cancelled ∧ r.restoredAt ≠ 0)) := by
  simp only [restoreDrain]
  cases hauth : e.requireAuthority authority now with
  | error err => exact ⟨rfl, Or.inl ⟨err, rfl⟩⟩
  | ok u =>
    cases hr : e.drain id with
    | none => exact ⟨rfl, Or.inl ⟨_, rfl⟩⟩
    | some r =>
      dsimp only
      split_ifs with hrestoring hsettled hdone
      · exact ⟨rfl, Or.inr ⟨rfl, r, rfl, Or.inl hrestoring⟩⟩
      · exact ⟨rfl, Or.inr ⟨rfl, r, rfl, Or.inr hdone⟩⟩
      · exact absurd ⟨r, hauth, hr, hsettled, hdone⟩ h
      · exact ⟨rfl, Or.inl ⟨_, rfl⟩⟩

/-- What is asked of the sink when a drain is restored. -/
def restorationActions (w : World) (r : DrainRecord) (generation : Generation) (reason : String)
    (now : TimePoint) : PendingActions :=
  { restorations := (w.outstandingFor r.target).map (fun obligation =>
      { drain := r.id, target := r.target, obligation := obligation.id,
        generation := r.generation, restoreGeneration := generation, at_ := now,
        reason := truncate reason })
    reopens := [{ target := r.target, generation, at_ := now, reason := truncate reason }] }

/-- The second half of a restoration: the record follows the fence. -/
theorem restoreDrain_of_restorable {reason : String} (h : e.Restorable id authority now r)
    {fence : AdmissionFence} {result : Result Generation}
    (hreopen : reopenFence e.fence r reason now = (fence, result)) :
    match result with
    | .error err => e.restoreDrain id authority reason now = ({ e with fence }, .error err)
    | .ok generation =>
      (r.revision = u64Max ∧
        (e.restoreDrain id authority reason now).1.toWorld = e.toWorld.withFence fence ∧
        ∃ err, (e.restoreDrain id authority reason now).2 = .error err) ∨
      (r.revision ≠ u64Max ∧
        (e.restoreDrain id authority reason now).1.toWorld = (e.toWorld.withFence fence).withDrain
          { r.moved .restoring now (truncate reason) with restoreGeneration := generation } ∧
        (e.restoreDrain id authority reason now).2 =
          .ok (restorationActions e.toWorld r generation reason now)) := by
  have hne := not_restoring_of_settled h.settled
  cases result with
  | error err =>
    simp only [restoreDrain, h.authorized, h.found, if_neg hne, h.settled, not_true_eq_false,
      if_false, if_neg h.unrestored, hreopen]
  | ok generation =>
    simp only [restoreDrain, h.authorized, h.found, if_neg hne, h.settled, not_true_eq_false,
      if_false, if_neg h.unrestored, hreopen]
    split
    · rename_i hmove
      obtain ⟨⟨err, ht⟩, hworld⟩ := applyTransition_none hmove
      exact Or.inl ⟨DrainRecord.revision_of_transition_error ht (isLegal_restoring h.settled),
        hworld, _, rfl⟩
    · rename_i e' r' hmove
      obtain ⟨ht, hworld⟩ := applyTransition_some hmove
      rcases DrainRecord.transition_ok ht with ⟨hsame, -⟩ | ⟨-, -, hroom, rfl⟩
      · exact absurd hsame.symm hne
      · refine Or.inr ⟨hroom, ?_, ?_⟩
        · rw [storeDrain_toWorld, hworld, withDrain_withDrain (by rfl)]
          rfl
        · simp only [restorationActions, outstandingFor, storeDrain, hworld]
          rfl

end

theorem effect_restoreDrain (e : Engine) (id : DrainId) (authority : AuthorityId)
    (reason : String) (now : TimePoint) :
    CallEffect e.toWorld (.restoreDrain id authority reason now)
      (e.restoreDrain id authority reason now).1.toWorld := by
  by_cases hres : ∃ r, e.toWorld.Restorable id authority now r
  · obtain ⟨r, hres⟩ := hres
    rcases hreopen : reopenFence e.fence r reason now with ⟨fence, err | reopened⟩
    · rw [restoreDrain_of_restorable hres hreopen]
      exact .restorationFailed hres.found hres.settled hres.unrestored hreopen (Or.inl ⟨err, rfl⟩)
    · rcases restoreDrain_of_restorable hres hreopen with ⟨hmax, hworld, -⟩ | ⟨-, hworld, -⟩
      · rw [hworld]
        exact .restorationFailed hres.found hres.settled hres.unrestored hreopen (Or.inr hmax)
      · rw [hworld]
        exact .restorationStarted _ hres.found hres.settled hres.unrestored hreopen
  · rw [(restoreDrain_of_not_restorable reason hres).1]
    exact quiet_self

/-- A drain is resumed or stays blocked, or nothing is written. -/
theorem resumeDrain_cases (e : Engine) (id : DrainId) (authority : AuthorityId)
    (now : TimePoint) :
    ((e.resumeDrain id authority now).1.toWorld = e.toWorld ∧
        (e.resumeDrain id authority now).2.isOk = false) ∨
      ∃ r r', e.drain id = some r ∧ r.state = .blocked ∧ Held now r e.toWorld r' e.evidence ∧
        (e.resumeDrain id authority now).1.toWorld = e.withDrain r' ∧
        ((e.resumeDrain id authority now).2.isOk = true →
          r.transition r.phase now "operator resume" = .ok r') := by
  simp only [resumeDrain]
  cases e.requireAuthority authority now with
  | error err => exact Or.inl ⟨rfl, rfl⟩
  | ok u =>
    cases hr : e.drain id with
    | none => exact Or.inl ⟨rfl, rfl⟩
    | some r =>
      dsimp only
      split_ifs with hb
      · exact Or.inl ⟨rfl, rfl⟩
      · rw [ne_eq, not_not] at hb
        have hphase : r.blockedFrom.getD .validating = r.phase := by
          rw [DrainRecord.phase, if_pos hb]
        rw [hphase]
        cases hclear : e.evaluateState r r.phase now with
        | cons first rest =>
          exact Or.inr ⟨r, _, rfl, hb, .of_hold now _ (r.hold_barred _ _ _)
            (fun _ => DrainRecord.state_barred hb _ _ _), enterBlocked_toWorld _ _ _ _ _,
            fun h => by cases h⟩
        | nil =>
          dsimp only
          split
          · rename_i e' r' hmove
            obtain ⟨ht, hworld⟩ := applyTransition_some hmove
            exact Or.inr ⟨r, r', rfl, hb,
              ⟨Hold.of_resume hb ht, Or.inl rfl, fun _ => rfl, fun _ _ => hclear⟩, hworld,
              fun _ => ht⟩
          · rename_i hmove
            exact Or.inl ⟨(applyTransition_none hmove).2, rfl⟩

theorem effect_resumeDrain {c : Call} (e : Engine) (id : DrainId) (authority : AuthorityId)
    (now : TimePoint) : CallEffect e.toWorld c (e.resumeDrain id authority now).1.toWorld := by
  rcases resumeDrain_cases e id authority now with ⟨hsame, -⟩ | ⟨r, r', hr, -, held, hworld, -⟩
  · rw [hsame]
    exact quiet_self
  · obtain rfl := id_of_drain hr
    rw [hworld]
    exact .held (.refl _) hr held

/-- An exception is refused before or after the grants of the drain were looked up, or it
is granted. -/
theorem grantException_cases (e : Engine) (id : DrainId) (obligation : ObligationId)
    (extension : Duration) (authority : AuthorityId) (now : TimePoint) :
    (Noted e e.toWorld (e.grantException id obligation extension authority now).1 ∧
        (e.grantException id obligation extension authority now).2.isOk = false) ∨
      ∃ r, e.drain id = some r ∧ isSettled r.state = false ∧
        (Noted e (e.withExceptions
              (OrdMap.set e.exceptions id ((OrdMap.get? e.exceptions id).getD [])))
            (e.grantException id obligation extension authority now).1 ∧
          (e.grantException id obligation extension authority now).2.isOk = false ∨
        ∃ sequence, 0 < extension ∧
          ((OrdMap.get? e.exceptions id).getD []).length < e.policy.maxExceptionExtensions ∧
          incrementChecked32 e.exceptionHighWater = some sequence ∧
          Noted e ((e.withGrant { drain := id, obligation, extension, authority,
                                  grantedAt := now, sequence }).withDrain r.resetEvacuationAttempts)
            (e.grantException id obligation extension authority now).1) := by
  simp only [grantException]
  cases e.requireAuthority authority now with
  | error err => exact Or.inl ⟨.silent, rfl⟩
  | ok u =>
    dsimp only
    by_cases hextension : extension ≤ 0
    · rw [if_pos hextension]
      exact Or.inl ⟨.silent, rfl⟩
    rw [if_neg hextension]
    cases hr : e.drain id with
    | none => exact Or.inl ⟨.silent, rfl⟩
    | some r =>
      dsimp only
      by_cases hsettled : isSettled r.state = true
      · rw [if_pos hsettled]
        exact Or.inl ⟨.silent, rfl⟩
      rw [if_neg hsettled]
      by_cases hunknown : obligation ≠ 0 ∧ (e.obligations.find obligation).isNone = true
      · rw [if_pos hunknown]
        exact Or.inl ⟨.silent, rfl⟩
      rw [if_neg hunknown]
      refine Or.inr ⟨r, rfl, by simpa using hsettled, ?_⟩
      split_ifs with hspent
      · exact Or.inl ⟨.silent, rfl⟩
      · cases hseq : incrementChecked32 e.exceptionHighWater with
        | none => exact Or.inl ⟨.silent, rfl⟩
        | some sequence =>
          refine Or.inr ⟨sequence, Int.not_le.mp hextension, Nat.not_le.mp hspent, rfl, ?_⟩
          let grant : ExceptionGrant :=
            { drain := id, obligation, extension, authority, grantedAt := now, sequence }
          -- Looking the grants up first does not change where the new one is appended.
          have htwice : OrdMap.set (OrdMap.set e.exceptions id
              ((OrdMap.get? e.exceptions id).getD [])) id
                ((OrdMap.get? e.exceptions id).getD [] ++ [grant]) =
              (e.toWorld.withGrant grant).exceptions := Table.put_put rfl
          dsimp only
          rw [htwice]
          exact .decided rfl

theorem effect_grantException {c : Call} (e : Engine) (id : DrainId) (obligation : ObligationId)
    (extension : Duration) (authority : AuthorityId) (now : TimePoint) :
    CallEffect e.toWorld c
      (e.grantException id obligation extension authority now).1.toWorld := by
  rcases grantException_cases e id obligation extension authority now with
    ⟨hnoted, -⟩ | ⟨r, hr, -, ⟨hnoted, -⟩ | ⟨sequence, -, -, -, hnoted⟩⟩
  · rw [hnoted.toWorld]
    exact quiet_self
  · rw [hnoted.toWorld]
    exact .quiet ⟨rfl, rfl, rfl, rfl⟩
  · have hold : Hold r r.resetEvacuationAttempts :=
      ⟨rfl, rfl, rfl, rfl, rfl, fun _ => rfl, rfl, fun _ => rfl, fun h => h⟩
    obtain rfl := id_of_drain hr
    rw [hnoted.toWorld]
    exact .held ⟨rfl, rfl, rfl, rfl⟩ hr (.of_hold now _ hold (fun h => h))

/-- What one operation can do. -/
theorem apply_effect (e : Engine) (c : Call) : CallEffect e.toWorld c (e.apply c).toWorld := by
  cases c with
  | setPolicy policy now => exact effect_setPolicy policy now
  | installIncarnation incarnation now => exact effect_installIncarnation incarnation now
  | installAuthorityLine incarnation epoch now reason =>
    exact effect_installAuthorityLine incarnation epoch now reason
  | beginNewEpoch incarnation now reason => exact effect_beginNewEpoch incarnation now reason
  | issueAuthority scope validity now => exact effect_issueAuthority scope validity now
  | revokeAuthority id reason now => exact effect_revokeAuthority id reason now
  | addResource node now => exact effect_addResource e node now
  | addEdge a b now => exact effect_extendTopology (fun _ => Topology.resources_addEdge) _ now
  | addPath path now => exact effect_extendTopology (fun _ => Topology.resources_addPath) _ now
  | addDiversityGroup group now =>
    exact effect_extendTopology (fun _ => Topology.resources_addDiversityGroup) _ now
  | addCapacityPool pool now =>
    exact effect_extendTopology (fun _ => Topology.resources_addCapacityPool) _ now
  | addProtectedRoute route now =>
    exact effect_extendTopology (fun _ => Topology.resources_addProtectedRoute) _ now
  | reportResourceStatus id status now => exact effect_reportResourceStatus e id status now
  | admitObligation draft presented authority now =>
    exact effect_admitObligation e draft presented authority now
  | reportObligation report now => exact effect_reportObligation e report now
  | recordEvidence draft now => exact effect_recordEvidence draft now
  | attestEvidence key seq now => exact effect_attestEvidence key seq now
  | requestDrainSet request now => exact effect_requestDrainSet e request now rfl
  | requestDrain request now => exact effect_requestDrain e request now
  | cancelDrain id authority reason now => exact effect_cancelDrain e id authority reason now
  | restoreDrain id authority reason now => exact effect_restoreDrain e id authority reason now
  | resumeDrain id authority now => exact effect_resumeDrain e id authority now
  | grantException id obligation extension authority now =>
    exact effect_grantException e id obligation extension authority now

end Engine

end DrainFabric
