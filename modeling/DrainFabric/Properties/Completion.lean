import DrainFabric.Engine.Frame

/-!
# Completion

A drain is declared drained only when nothing depends on its target any more: the
first of the invariants the runtime promises to enforce.

Verification itself compares less than the promise. That the fence is at the
drain's own generation is an invariant of all runs (`Fenced.held`), and that the
rest of the pass does not undo what verification found is `sealed_turn`.

* `completion_safety` — what holds of every drain a pass completes;
* `resource_completion` — the same for the resource, where its id names one target.
-/

namespace DrainFabric

open Lib World Engine AdmissionFence

variable {now : TimePoint} {id : DrainId} {r r' : DrainRecord} {w : World} {ev : Event} {e : Engine}

/-- What the completion of a drain at `now` promises. -/
structure Certified (now : TimePoint) (id : DrainId) (r : DrainRecord) (w : World) : Prop where
  obligations : ∀ o ∈ w.obligations.all, o.protection = .protectedClass →
    r.target ∈ o.dependencies → o.state = .retired
  fence : w.fence.HeldBy r.target id r.generation
  resource : ∃ node, w.topology.resource r.target.id = some node ∧ node.status = .unavailable
  remaining : r.remainingProtectedAtCompletion = 0
  evidence : w.policy.requireQuiescenceEvidence = true →
    ∃ ev, w.evidence.find { kind := .resourceRemoved, drain := id, resource := r.target.id }
        r.completionEvidence = some ev ∧
      ev.attested = true ∧ ev.epoch = w.authority.epoch ∧ ev.generation = r.generation ∧
      r.admissionClosedAt ≤ ev.observedAt ∧
      EvidenceLedger.isFresh ev (w.evidenceFence now) w.policy.evidenceFreshness = true

/-- The completed drain in a form the other turns of the pass preserve: the proof is
the newest record of its stream, which no other drain writes to or evicts. -/
structure Sealed (now : TimePoint) (id : DrainId) (r : DrainRecord) (w : World) : Prop where
  drain : w.drain id = some r
  state : r.state = .drained
  outstanding : w.outstandingFor r.target = []
  fence : w.fence.HeldBy r.target id r.generation
  resource : w.OutOfService r.target.id
  remaining : r.remainingProtectedAtCompletion = 0
  evidence : w.policy.requireQuiescenceEvidence = true →
    ∃ ev, w.evidence.latest (removalKey r) = some ev ∧ ev.seq = r.completionEvidence ∧
      EvidenceLedger.isFresh ev (w.evidenceFence now) w.policy.evidenceFreshness = true ∧
      ev.generation = r.generation ∧ r.admissionClosedAt ≤ ev.observedAt

theorem Sealed.certified (h : Sealed now id r w) : Certified now id r w where
  obligations := fun o ho hprotected hdep => by
    by_contra hstate
    have hblocks := (ObligationTable.outstanding_nil_iff.mp h.outstanding) o ho hdep
    rw [Obligation.blocksCompletion_iff.mpr ⟨hprotected, hstate⟩] at hblocks
    cases hblocks
  fence := h.fence
  resource := h.resource
  remaining := h.remaining
  evidence := fun hreq => by
    obtain ⟨ev, hlatest, hseq, hfresh, hgen, hobserved⟩ := h.evidence hreq
    obtain ⟨hattested, hepoch, -⟩ := EvidenceLedger.isFresh_iff.mp hfresh
    have hfind := (EvidenceLedger.find_of_latest hlatest).2
    rw [hseq] at hfind
    have hkey : removalKey r = { kind := .resourceRemoved, drain := id, resource := r.target.id } := by
      rw [removalKey, id_of_drain h.drain]
    exact ⟨ev, hkey ▸ hfind, hattested, hepoch, hgen, hobserved, hfresh⟩

/-! ### The turn that completes -/

/-- A drain that verifies is held or completed. -/
theorem act_of_verifying {w' : World} {requests : List EvacuationRequest}
    (h : Act now r w w' requests) (hphase : r.phase = .verifying) :
    (∃ r' evidence, Hold r r' ∧ w' = (w.withEvidence evidence).withDrain r') ∨
      ∃ evidence proof detail, r.state = .verifying ∧
        (w.withEvidence evidence).evaluateVerification r now = ([], proof) ∧
        w' = (w.withEvidence evidence).withDrain
          (((w.withEvidence evidence).completionRecord r proof now).moved .drained now detail) := by
  -- Every other case acts in a state that is neither `Blocked` nor `Verifying`.
  have clash : ∀ {state : DrainState}, r.state = state → state ≠ .blocked → state = .verifying := by
    intro state hs hne
    rw [← hphase, DrainRecord.phase_of_state hs hne]
  cases h with
  | held h => exact Or.inl ⟨_, _, h.hold, rfl⟩
  | completed detail hs hobs hv => exact Or.inr ⟨_, _, detail, hs, hv, rfl⟩
  | requested hs => cases clash hs (by decide)
  | moved _ hf =>
    have hs := clash rfl hf.ne_blocked.1
    rw [hs] at hf
    cases hf
  | closed hs | closeFailed hs | retired hs | removed hs | observed hs | settled _ hs
  | settleFailed hs => cases clash hs (by decide)

/-- A drain becomes drained in its own turn, from `Verifying`. -/
theorem completes_inv {w' : World} (h : DrainStep w ev w')
    (hbefore : ∀ r, w.drain id = some r → r.state ≠ .drained) (hafter : w'.drain id = some r')
    (hstate : r'.state = .drained) :
    ∃ now r, ev = .turn id now ∧ w.drain id = some r ∧ r.phase = .verifying := by
  cases h.fate hafter with
  | born _ _ _ hs =>
    rw [hs] at hstate
    cases hstate
  | keeps hr kept => exact absurd (kept.drained hstate) (hbefore _ hr)
  | @moves now r hr _ hpath hs =>
    rw [← hs, hstate] at hpath
    generalize hsource : r.phase = source at hpath
    cases hpath with
    | forward hf => cases hf
    | complete => exact ⟨now, r, rfl, hr, hsource⟩
  | closes _ _ _ _ _ _ hcase =>
    rcases hcase with hs | ⟨hphase, -⟩
    · rw [hs] at hstate
      cases hstate
    · cases (DrainRecord.phase_of_state hstate (by decide)).symm.trans hphase
  | retries hr hold => exact absurd (hold.drained hstate) (hbefore _ hr)
  | settles _ _ _ hs =>
    rw [hs] at hstate
    cases hstate
  | cancels _ _ _ _ hs =>
    rw [hs] at hstate
    cases hstate
  | reopens _ _ _ _ hs =>
    rw [hs] at hstate
    cases hstate
  | refused hr => exact absurd hstate (hbefore _ hr)

/-- How a drain left as `r` is completed at `now`: it is verified as `q`, in the state
`seen`, with this proof. -/
structure Verified (w : World) (now : TimePoint) (r q : DrainRecord) (seen : World)
    (proof : EvidenceSeq) : Prop where
  phase : r.phase = .verifying
  hold : Hold r q
  state : q.state = .verifying
  view : ∃ evidence, seen = (w.withEvidence evidence).withDrain q
  passed : seen.evaluateVerification q now = ([], proof)

/-- The event that completes a drain is a turn, and ends with the completion. -/
theorem verified_of_fire (hbefore : ∀ r, e.drain id = some r → r.state ≠ .drained)
    (hafter : (e.fire ev).drain id = some r') (hstate : r'.state = .drained) :
    ∃ now r q seen proof detail, ev = .turn id now ∧ e.drain id = some r ∧
      Verified e.toWorld now r q seen proof ∧
      r' = (seen.completionRecord q proof now).moved .drained now detail ∧
      (e.fire ev).toWorld = seen.withDrain r' := by
  obtain ⟨now, r, rfl, hr, hphase⟩ := completes_inv (fire_drainStep e ev) hbefore hafter hstate
  have hnot := hbefore r hr
  simp only [fire] at hafter ⊢
  rcases turn_effect e id now with ⟨heq, -⟩ | ⟨q, r₁, evidence, w₁, hq, -, held, hw₁, hact⟩
  · rw [heq] at hafter
    exact absurd hstate (hbefore r' hafter)
  obtain rfl := Option.some.inj (hr.symm.trans hq)
  obtain rfl := id_of_drain hr
  have hold := held.hold
  -- The record the turn leaves behind is the one it stored last.
  have hstored : ∀ {w : World} {q : DrainRecord}, (w.withDrain q).drain r.id = some r' →
      q.id = r.id → q = r' := by
    intro w q h hid
    rw [drain_withDrain, if_pos hid] at h
    exact Option.some.inj h
  have hheld : ∀ {q : DrainRecord}, Hold r q → q ≠ r' := fun hq h =>
    hnot (hq.drained (h ▸ hstate))
  rcases hact with ⟨hworld, -⟩ | hact
  · rw [hworld, hw₁] at hafter
    exact absurd (hstored hafter hold.id) (hheld hold)
  rcases act_of_verifying hact (hold.phase.trans hphase) with
    ⟨q, evidence', hold', hworld⟩ | ⟨evidence', proof, detail, hverifying, hv, hworld⟩
  · rw [hworld] at hafter
    have hq := hold.trans hold'
    exact absurd (hstored hafter hq.id) (hheld hq)
  · rw [hworld] at hafter
    obtain rfl := hstored hafter hold.id
    have hseen : w₁.withEvidence evidence' = (e.toWorld.withEvidence evidence').withDrain r₁ := by
      rw [hw₁]
      rfl
    exact ⟨now, r, r₁, _, proof, detail, rfl, hr, ⟨hphase, hold, hverifying, ⟨evidence', hseen⟩, hv⟩,
      rfl, hworld⟩

/-- The event that completes a drain is a turn and leaves the drain sealed. -/
theorem sealed_of_fire (inv : Fenced e.toWorld)
    (hbefore : ∀ r, e.drain id = some r → r.state ≠ .drained)
    (hafter : (e.fire ev).drain id = some r') (hstate : r'.state = .drained) :
    ∃ now, ev = .turn id now ∧ Sealed now id r' (e.fire ev).toWorld := by
  obtain ⟨now, r, q, seen, proof, detail, hev, hr, h, rfl, hworld⟩ :=
    verified_of_fire hbefore hafter hstate
  refine ⟨now, hev, ?_⟩
  obtain rfl := id_of_drain hr
  rw [hworld] at hafter ⊢
  obtain ⟨evidence, hseen⟩ := h.view
  obtain ⟨howned, hproof⟩ := evaluateVerification_nil h.passed
  have hfence := inv.held r.id r hr (by simp [h.phase, isFenceHoldingState])
  rw [← h.hold.target, ← h.hold.generation, show e.fence = seen.fence by rw [hseen]; rfl] at hfence
  refine ⟨hafter, rfl, outstandingFor_of_verified h.passed, hfence,
    (removalOwnedBy_iff.mp howned).1, rfl, fun hreq => ?_⟩
  obtain ⟨ev, hlatest, hseq, hfresh, hgen, hobserved⟩ := removalProof_ok (hproof hreq)
  exact ⟨ev, hlatest, hseq, hfresh, hgen, hobserved⟩

/-! ### The rest of the pass -/

/-- An obligation that does not block completion after a turn did not block it before. -/
theorem outstandingFor_turn {target : DrainTarget} (h : e.outstandingFor target = [])
    (id : DrainId) (now : TimePoint) : (e.turn id now).1.outstandingFor target = [] := by
  rw [outstandingFor, ObligationTable.outstanding_nil_iff] at h ⊢
  intro o' ho' hdep
  have hfate := (fire_obligationStep e (.turn id now)).fate (ObligationTable.mem_all_iff.mp ho')
  generalize hev : Event.turn id now = ev at hfate
  cases hfate with
  | @keeps _ o hfind hterms hstate =>
    have hfind' : o ∈ e.obligations.all :=
      ObligationTable.mem_all_iff.mpr (by rwa [← hterms.id])
    have hblocks := h o hfind' (hterms.dependencies ▸ hdep)
    rwa [Obligation.blocksCompletion, hterms.protection, hstate]
  | admitted => cases hev
  | reported => cases hev
  | retired _ _ _ _ _ hstate => simp [Obligation.blocksCompletion, hstate]

/-- The other turns of the pass leave a sealed drain sealed. -/
theorem sealed_turn {other : DrainId} (inv : Fenced e.toWorld) (h : Sealed now id r e.toWorld) :
    Sealed now id r (e.turn other now).1.toWorld := by
  by_cases hown : other = id
  · subst hown
    rcases turn_effect e other now with ⟨heq, -⟩ | ⟨q, _, _, _, hq, hunsettled, -⟩
    · rwa [heq]
    · rw [h.drain] at hq
      obtain rfl := Option.some.inj hq
      simp [h.state, isSettled] at hunsettled
  have frame := turn_frame e other now
  have hdrain := (frame.others id (Ne.symm hown)).trans h.drain
  refine ⟨hdrain, h.state, outstandingFor_turn h.outstanding other now, ?_,
    outOfService_step inv (fire_resourceStep e (.turn other now)) (by simp) h.resource,
    h.remaining, fun hreq => ?_⟩
  · have hfate := (turn_drainStep e other now).fate hdrain
    generalize hev : Event.turn other now = ev at hfate
    have hstays : Same e.fence (e.turn other now).1.fence r.target id := by
      cases hfate with
      | keeps hr _ same =>
        obtain rfl := Option.some.inj (h.drain.symm.trans hr)
        exact same
      | born => cases hev
      | moves | closes | retries | settles => exact absurd (Event.turn.inj hev).1 hown
      | cancels => cases hev
      | reopens => cases hev
      | refused => cases hev
    exact hstays.held _ h.fence
  · rw [frame.policy] at hreq
    obtain ⟨ev, hlatest, hseq, hfresh, hgen, hobserved⟩ := h.evidence hreq
    refine ⟨ev, frame.latest _ ev ?_ hlatest, hseq, ?_, hgen, hobserved⟩
    · rw [show (removalKey r).drain = r.id from rfl, id_of_drain h.drain]
      exact Ne.symm hown
    · rwa [evidenceFence, frame.policy, frame.authority]

/-- Completion safety: what holds of every drain that a pass completes, in the state
the pass leaves behind. -/
theorem completion_safety {C : Engine → Event → Prop} {e : Engine} (he : Reachable C e)
    (now : TimePoint) {id : DrainId} {r : DrainRecord}
    (hbefore : ∀ q, e.drain id = some q → q.state ≠ .drained)
    (hafter : (e.advance now).1.drain id = some r) (hstate : r.state = .drained) :
    Certified now id r (e.advance now).1.toWorld := by
  rw [advance_eq_run] at hafter ⊢
  have hturns : ∀ ev ∈ e.passTurns now, ∃ other, ev = .turn other now := by
    intro ev hev
    obtain ⟨other, -, rfl⟩ := List.mem_map.mp hev
    exact ⟨other, rfl⟩
  -- The last turn of the pass after which the drain was drained is the one that completed it.
  obtain ⟨pre, ev, post, hsplit, hpre, hsince⟩ := exists_last_rise
    (Q := fun e : Engine => ∃ q, e.drain id = some q ∧ q.state = .drained)
    (fun ⟨q, hq, hs⟩ => hbefore q hq hs) ⟨r, hafter, hstate⟩
  obtain ⟨other, rfl⟩ := hturns ev (by rw [hsplit]; simp)
  obtain ⟨q, hq, hs⟩ := hsince [] List.nil_prefix
  rw [run_concat] at hq
  have inv := fenced_run he.fenced pre
  obtain ⟨now', hev, hsealed⟩ := sealed_of_fire inv (fun q hq hs => hpre ⟨q, hq, hs⟩) hq hs
  obtain ⟨rfl, rfl⟩ : other = id ∧ now = now' := Event.turn.inj hev
  -- From there on the drain stays sealed.
  have hrest : Always fire (fun _ ev => ∃ other, ev = .turn other now)
      ((run fire e pre).fire (.turn other now)) post :=
    always_of_forall (fun ev hev _ => hturns ev (by rw [hsplit]; simp [hev])) _
  have hend := run_invariant
    (P := fun e : Engine => Fenced e.toWorld ∧ Sealed now other q e.toWorld)
    (fun e ev ⟨inv, hsealed⟩ ⟨other, hev⟩ => by
      subst hev
      exact ⟨fenced_fire e _ inv, sealed_turn inv hsealed⟩)
    ⟨fenced_fire _ (.turn other now) inv, hsealed⟩ hrest
  rw [← run_cons, ← run_append, ← hsplit] at hend
  obtain rfl := Option.some.inj (hend.2.drain.symm.trans hafter)
  exact hend.2.certified

/-- The fifth pass over the drain of a port without obligations completes it. -/
theorem completion_safety_onePort :
    ∃ r, ((OnePort.afterPasses 4).advance 1).1.drain 1 = some r ∧ r.state = .drained ∧
      Certified 1 1 r ((OnePort.afterPasses 4).advance 1).1.toWorld := by
  have hreach : Reachable (fun _ _ => True) (OnePort.afterPasses 4) :=
    reachable_run (.init {}) (by decide +kernel)
  have hbefore : ((OnePort.afterPasses 4).drain 1).all (fun q => q.state ≠ .drained) = true := by
    decide +kernel
  have hafter : (((OnePort.afterPasses 4).advance 1).1.drain 1).any
      (fun r => r.state = .drained) = true := by
    decide +kernel
  obtain ⟨r, hr, hs⟩ := Option.any_eq_true _ _ |>.mp hafter
  refine ⟨r, hr, by simpa using hs, completion_safety hreach 1 (fun q hq => ?_) hr (by simpa using hs)⟩
  simpa [hq] using hbefore

/-! ### The resource behind the target

Obligations and fences are kept per target, that is per kind, resource and failure
domain, but what leaves service is the resource. The two readings of completion
agree as long as a resource is only ever named by one target. -/

/-- The targets an event introduces: those it asks to drain, and the dependencies of
a protected obligation. -/
def Event.names : Event → List DrainTarget
  | .call (.admitObligation draft _ _ _) =>
    if draft.protection = .protectedClass then draft.dependencies.val else []
  | .call c => c.targets
  | _ => []

/-- Every target the event introduces is the one target of its resource. -/
def NamesOneTarget (targetOf : ResourceId → DrainTarget) (_ : Engine) (ev : Event) : Prop :=
  ∀ target ∈ ev.names, targetOf target.id = target

instance (targetOf : ResourceId → DrainTarget) (e : Engine) (ev : Event) :
    Decidable (NamesOneTarget targetOf e ev) :=
  inferInstanceAs (Decidable (∀ target ∈ ev.names, targetOf target.id = target))

/-- Everything in the world names resources by their one target. -/
structure Named (targetOf : ResourceId → DrainTarget) (w : World) : Prop where
  drains : ∀ id r, w.drain id = some r → targetOf r.target.id = r.target
  obligations : ∀ id o, w.obligations.find id = some o → o.protection = .protectedClass →
    ∀ target ∈ o.dependencies, targetOf target.id = target

theorem named_fire {targetOf : ResourceId → DrainTarget} (e : Engine) (ev : Event)
    (inv : Named targetOf e.toWorld) (hev : NamesOneTarget targetOf e ev) :
    Named targetOf (e.fire ev).toWorld := by
  constructor
  · intro id r hr
    have hfate := (fire_drainStep e ev).fate hr
    cases hq : e.drain id with
    | some q => exact hfate.target hq ▸ inv.drains id q hq
    | none =>
      obtain ⟨c, rfl, hmem, -⟩ := hfate.of_none hq
      refine hev r.target ?_
      cases c <;> first | exact hmem | cases hmem
  · intro id o ho hprotected target hdep
    cases (fire_obligationStep e ev).fate ho with
    | keeps hfind hterms =>
      exact inv.obligations id _ hfind (hterms.protection ▸ hprotected) target
        (hterms.dependencies ▸ hdep)
    | admitted _ hdeps hprotection =>
      rw [hprotection] at hprotected
      rw [hdeps] at hdep
      refine hev target ?_
      rw [Event.names, if_pos hprotected]
      exact hdep
    | reported hfind hterms =>
      exact inv.obligations id _ hfind (hterms.protection ▸ hprotected) target
        (hterms.dependencies ▸ hdep)
    | retired _ _ _ hfind hterms =>
      exact inv.obligations id _ hfind (hterms.protection ▸ hprotected) target
        (hterms.dependencies ▸ hdep)

theorem named_init (targetOf : ResourceId → DrainTarget) (policy : DrainPolicy) :
    Named targetOf (Engine.init policy).toWorld :=
  ⟨fun _ _ h => by simp at h, fun _ _ h => by simp at h⟩

/-- Where every resource is named by one target, no protected obligation names the
resource of a drain at the moment the drain becomes drained. -/
theorem resource_completion {targetOf : ResourceId → DrainTarget} {policy : DrainPolicy}
    {events : List Event} {ev : Event}
    (hrun : Always fire (NamesOneTarget targetOf) (Engine.init policy) (events ++ [ev]))
    {id : DrainId} {r : DrainRecord}
    (hbefore : ∀ q, (run fire (Engine.init policy) events).drain id = some q → q.state ≠ .drained)
    (hafter : (run fire (Engine.init policy) (events ++ [ev])).drain id = some r)
    (hstate : r.state = .drained) :
    ∀ o ∈ (run fire (Engine.init policy) (events ++ [ev])).obligations.all,
      o.protection = .protectedClass → o.dependsOnResource r.target.id = true →
      o.state = .retired := by
  have inv := run_invariant (P := fun e : Engine => Named targetOf e.toWorld) named_fire
    (named_init targetOf policy) hrun
  rw [run_concat] at hafter inv ⊢
  obtain ⟨now, -, hsealed⟩ := sealed_of_fire (fenced_run (fenced_init policy) events) hbefore
    hafter hstate
  intro o ho hprotected hdep
  obtain ⟨target, htarget, hid⟩ := Obligation.dependsOnResource_iff.mp hdep
  -- The dependency and the drain name the same resource, so they are the same target.
  have hsame : target = r.target :=
    calc target = targetOf target.id :=
          (inv.obligations o.id o (ObligationTable.mem_all_iff.mp ho) hprotected target htarget).symm
      _ = targetOf r.target.id := by rw [hid]
      _ = r.target := inv.drains id r hafter
  exact hsealed.certified.obligations o ho hprotected (hsame ▸ htarget)

/-- The port with one flow over it, drained after the flow was reported as retired. -/
def OnePort.reportedFlow : List Event :=
  (OnePort.setup 1).map .call ++ [.call (OnePort.admitFlow 1)] ++ OnePort.turns 3 1 ++
    [.call (.reportObligation { obligation := 1, expectedRevision := 1, next := .retired } 1)] ++
    OnePort.turns 2 1

theorem resource_completion_onePort :
    ∃ r, (run fire (Engine.init {}) (OnePort.reportedFlow ++ [.turn 1 1])).drain 1 = some r ∧
      r.state = .drained ∧
      ∀ o ∈ (run fire (Engine.init {}) (OnePort.reportedFlow ++ [.turn 1 1])).obligations.all,
        o.protection = .protectedClass → o.dependsOnResource r.target.id = true →
        o.state = .retired := by
  have hrun : Always fire (NamesOneTarget (fun _ => OnePort.port)) (Engine.init {})
      (OnePort.reportedFlow ++ [.turn 1 1]) := by
    decide +kernel
  have hbefore : ((run fire (Engine.init {}) OnePort.reportedFlow).drain 1).all
      (fun q => q.state ≠ .drained) = true := by
    decide +kernel
  have hafter : ((run fire (Engine.init {}) (OnePort.reportedFlow ++ [.turn 1 1])).drain 1).any
      (fun r => r.state = .drained) = true := by
    decide +kernel
  obtain ⟨r, hr, hs⟩ := Option.any_eq_true _ _ |>.mp hafter
  refine ⟨r, hr, by simpa using hs, ?_⟩
  exact resource_completion hrun (fun q hq => by simpa [hq] using hbefore) hr (by simpa using hs)

/-- Turns of the drain of the port, with a flow that names another failure domain for it. -/
def OnePort.foreignFlow (count : Nat) : Engine :=
  run fire (Engine.init {}) ((OnePort.setup 1).map .call ++
    [.call (.admitObligation
      (Obligation.make .activeFlow "flow" [{ OnePort.port with domain := "d2" }]) 0 1 1)] ++
    OnePort.turns count 1)

/-- The port becomes drained while a protected flow depends on the resource. -/
theorem resource_completion_fails :
    ((OnePort.foreignFlow 4).drain 1).map DrainRecord.state = some .verifying ∧
      ((OnePort.foreignFlow 5).drain 1).map (fun r => (r.state, r.target.id)) =
        some (.drained, "p1") ∧
      ((OnePort.foreignFlow 5).obligations.find 1).map
        (fun o => (o.protection, o.dependsOnResource "p1", o.state)) =
        some (.protectedClass, true, .admitted) := by
  decide +kernel

end DrainFabric
