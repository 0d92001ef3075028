import DrainFabric.Engine.RestartEffect

/-!
# Three views of a step

An event of a run seen by the parts of the state it can change: the drains with
the fence (`DrainStep`), the obligations (`ObligationStep`) and the resources
(`ResourceStep`). Each view is one relation between the worlds before and after,
and an invariant is proved by cases on the view it belongs to.

* `fire_drainStep`, `fire_obligationStep`, `fire_resourceStep` — every event of the
  engine is a step in each view.
-/

namespace DrainFabric

open Lib

variable {w w' : World} {r r' : DrainRecord}

namespace World

/-! ### What the guards say -/

/-- What a drain that may close admission was found to satisfy. -/
theorem evaluateStart_nil {now : TimePoint} (h : w.evaluateStart r now = []) :
    (∀ e, w.fence.entry r.target = some e → e.closed = true → e.drain = r.id) ∧
      ∃ node, w.topology.resource r.target.id = some node ∧ node.status = .inService := by
  simp only [evaluateStart, List.append_eq_nil_iff] at h
  obtain ⟨⟨⟨⟨⟨⟨-, hfence⟩, hnode⟩, -⟩, -⟩, -⟩, -⟩ := h
  constructor
  · intro e he hclosed
    by_contra hne
    simp [he, hclosed, hne] at hfence
  · cases hres : w.topology.resource r.target.id with
    | none => simp [hres] at hnode
    | some node =>
      refine ⟨node, rfl, ?_⟩
      by_contra hne
      simp [hres, ResourceNode.isInService, hne] at hnode

theorem removalOwnedBy_iff :
    w.removalOwnedBy r = true ↔
      (∃ node, w.topology.resource r.target.id = some node ∧ node.status = .unavailable) ∧
        ∃ e, w.fence.entry r.target = some e ∧ e.closed = true ∧ e.drain = r.id := by
  unfold removalOwnedBy
  cases w.topology.resource r.target.id with
  | none => simp
  | some node => cases w.fence.entry r.target <;> simp

/-! ### Drains and fence -/

/-- `w'` is `w` with the record `r` rewritten to `r'`, as far as drains go. -/
structure Rewrites (w : World) (r r' : DrainRecord) (w' : World) : Prop where
  before : w.drain r.id = some r
  target : r'.target = r.target
  after : ∀ id, w'.drain id = if r.id = id then some r' else w.drain id

/-- A drain other than the rewritten one, or the rewritten one itself. -/
theorem Rewrites.cases {q : DrainRecord} {id : DrainId} (h : Rewrites w r r' w')
    (hq : w'.drain id = some q) : (id = r.id ∧ q = r') ∨ (id ≠ r.id ∧ w.drain id = some q) := by
  rw [h.after] at hq
  split_ifs at hq with hid
  · exact Or.inl ⟨hid.symm, (Option.some.inj hq).symm⟩
  · exact Or.inr ⟨Ne.symm hid, hq⟩

/-- The moves of the forward path. -/
inductive Path : DrainState → DrainState → Prop
  | forward {source next : DrainState} : Forward source next → Path source next
  | remove : Path .quiescing .verifying
  | complete : Path .verifying .drained

/-- What an event does to the drains and the fence. -/
inductive DrainStep (w : World) : Event → World → Prop
  /-- Every drain stands where it stood. -/
  | stays {ev : Event} {w' : World} :
      (∀ id, w.drain id = none → w'.drain id = none) →
      (∀ id r, w.drain id = some r → ∃ r', Hold r r' ∧ w'.drain id = some r') →
      w'.fence = w.fence → DrainStep w ev w'
  | moves {now : TimePoint} {r q : DrainRecord} {w' : World} :
      Rewrites w r q w' → Path r.phase q.phase → q.state = q.phase →
      q.generation = r.generation → q.restoredAt = r.restoredAt → w'.fence = w.fence →
      DrainStep w (.turn r.id now) w'
  /-- The drain closes admission; with an exhausted revision it does not move. -/
  | closes {now : TimePoint} {r q : DrainRecord} {w' : World} {reason : String} :
      Rewrites w r q w' → r.phase = .validating →
      (∀ e, w.fence.entry r.target = some e → e.closed = true → e.drain = r.id) →
      (∃ node, w.topology.resource r.target.id = some node ∧ node.status = .inService) →
      w.fence.close r.target r.id now reason = (w'.fence, .ok q.generation) →
      q.restoredAt = r.restoredAt →
      (q.state = .admissionClosed ∨ q.phase = .validating ∧ q.revision = u64Max) →
      DrainStep w (.turn r.id now) w'
  | closeFails {now : TimePoint} {r q : DrainRecord} {w' : World} {reason : String}
      {err : Error} :
      Rewrites w r q w' → Hold r q → r.phase = .validating →
      (∀ e, w.fence.entry r.target = some e → e.closed = true → e.drain = r.id) →
      w.fence.close r.target r.id now reason = (w'.fence, .error err) →
      DrainStep w (.turn r.id now) w'
  | settles {now : TimePoint} {r q : DrainRecord} {w' : World} :
      Rewrites w r q w' → r.phase = .restoring → q.state = .cancelled →
      q.generation = r.generation → q.restoredAt = now → w'.fence = w.fence →
      DrainStep w (.turn r.id now) w'
  | cancels {authority : AuthorityId} {reason : String} {now : TimePoint} {r q : DrainRecord}
      {w' : World} :
      Rewrites w r q w' → r.state ≠ .drained → r.state ≠ .cancelled → q.state = .cancelled →
      q.generation = r.generation → q.restoredAt = r.restoredAt → w'.fence = w.fence →
      DrainStep w (.call (.cancelDrain r.id authority reason now)) w'
  | reopens {authority : AuthorityId} {reason : String} {now : TimePoint} {r q : DrainRecord}
      {w' : World} :
      Rewrites w r q w' → isSettled r.state = true →
      ¬ (r.state = .cancelled ∧ r.restoredAt ≠ 0) →
      Engine.reopenFence w.fence r reason now = (w'.fence, .ok q.restoreGeneration) →
      q.state = .restoring → q.generation = r.generation → q.restoredAt = r.restoredAt →
      DrainStep w (.call (.restoreDrain r.id authority reason now)) w'
  | reopenFails {authority : AuthorityId} {reason : String} {now : TimePoint} {r : DrainRecord}
      {w' : World} {result : Result Generation} :
      w.drain r.id = some r → isSettled r.state = true →
      ¬ (r.state = .cancelled ∧ r.restoredAt ≠ 0) →
      Engine.reopenFence w.fence r reason now = (w'.fence, result) →
      ((∃ err, result = .error err) ∨ r.revision = u64Max) → w'.drains = w.drains →
      DrainStep w (.call (.restoreDrain r.id authority reason now)) w'
  | spawns {c : Call} {targets : List DrainTarget} {w' : World} :
      (∀ target ∈ targets, target ∈ c.targets ∧ w.IsFree target) → Spawned w targets w' →
      DrainStep w (.call c) w'
  | recovers {prev : IncarnationId} {now : TimePoint} {w' : World} :
      Recovered w w' → DrainStep w (.restart prev now) w'

theorem DrainStep.same {ev : Event} (hdrains : w'.drains = w.drains) (hfence : w'.fence = w.fence) :
    DrainStep w ev w' := by
  have hsame : ∀ id, w'.drain id = w.drain id := fun id => by rw [drain, drain, hdrains]
  exact .stays (fun id h => (hsame id).trans h)
    (fun id r h => ⟨r, .refl r, (hsame id).trans h⟩) hfence

/-- One record is held, all others are untouched. -/
theorem DrainStep.holds {ev : Event} (h : Rewrites w r r' w') (hold : Hold r r')
    (hfence : w'.fence = w.fence) : DrainStep w ev w' := by
  refine .stays (fun id hnone => ?_) (fun id q hq => ?_) hfence
  · rw [h.after, if_neg, hnone]
    rintro rfl
    rw [h.before] at hnone
    cases hnone
  · rw [h.after]
    by_cases hid : r.id = id
    · rw [if_pos hid]
      rw [← hid, h.before] at hq
      obtain rfl := Option.some.inj hq
      exact ⟨r', hold, rfl⟩
    · rw [if_neg hid]
      exact ⟨q, .refl q, hq⟩

/-! ### Obligations -/

/-- What an event does to the obligations. -/
inductive ObligationStep (w : World) : Event → World → Prop
  | same {ev : Event} {w' : World} :
      w'.obligations.obligations = w.obligations.obligations → ObligationStep w ev w'
  | admits {draft o : Obligation} {presented : Generation} {authority : AuthorityId}
      {now : TimePoint} {w' : World} :
      (∀ target ∈ draft.dependencies, w.fence.checkAdmission target presented = .ok ()) →
      w.obligations.insert { draft with admittedAt := now, admissionGeneration := presented } =
        (w'.obligations, .ok o) → w'.fence = w.fence →
      ObligationStep w (.call (.admitObligation draft presented authority now)) w'
  | reports {report : ObligationReport} {now : TimePoint} {o applied : Obligation}
      {attempt : Attempt} {note : String} {w' : World} :
      w.obligations.find report.obligation = some o → Engine.reportFence w report = .ok () →
      o.applyState report.expectedRevision report.next report.evidence now = .ok applied →
      w'.obligations = w.obligations.store { applied with attempt, note } →
      w'.fence = w.fence → ObligationStep w (.call (.reportObligation report now)) w'
  /-- A drain retires what it found released, by what it knew before the turn. -/
  | retires {now : TimePoint} {r : DrainRecord} {w' : World} :
      w.drain r.id = some r → r.phase = .quiescing →
      w'.obligations = ((w.retirable r now).foldl (Engine.retireOne now) (w.obligations, 0)).1 →
      w'.fence = w.fence → ObligationStep w (.turn r.id now) w'
  | recovers {prev : IncarnationId} {now : TimePoint} {w' : World} :
      w'.obligations.obligations =
        w.obligations.obligations.mapVals Obligation.persisted Obligation.persisted_id →
      ObligationStep w (.restart prev now) w'

/-! ### Resources -/

/-- What an event does to the resources. -/
inductive ResourceStep (w : World) : Event → World → Prop
  | same {ev : Event} {w' : World} :
      w'.topology.resources = w.topology.resources → ResourceStep w ev w'
  | adds {node : ResourceNode} {now : TimePoint} {w' : World} :
      w.topology.resource node.id = none →
      w'.topology.resources = w.topology.resources.put node →
      ResourceStep w (.call (.addResource node now)) w'
  | reports {id : ResourceId} {status : ResourceStatus} {now : TimePoint} {w' : World} :
      w.topology.setStatus id status = .ok w'.topology →
      ResourceStep w (.call (.reportResourceStatus id status now)) w'
  /-- The removal step of a drain. -/
  | removes {now : TimePoint} {r : DrainRecord} {node : ResourceNode} {w' : World} :
      w.drain r.id = some r → r.phase = .quiescing →
      w.topology.resource r.target.id = some node → node.status = .inService →
      (w.removalViolation r).ok = true →
      w.topology.setStatus r.target.id .unavailable = .ok w'.topology →
      ResourceStep w (.turn r.id now) w'
  | restores {now : TimePoint} {r : DrainRecord} {w' : World} :
      w.drain r.id = some r → r.phase = .restoring → w.removalOwnedBy r = true →
      w.topology.setStatus r.target.id .inService = .ok w'.topology →
      ResourceStep w (.turn r.id now) w'

end World

namespace Engine

open World

/-! ### Every event is a step in each view -/

/-- The record a turn leaves behind, seen from before the drain was made ready. -/
theorem rewrites_of_act {w₁ : World} {r₁ : DrainRecord} {evidence : EvidenceLedger}
    (hr : w.drain r.id = some r) (hold : Hold r r₁)
    (hw₁ : w₁ = (w.withEvidence evidence).withDrain r₁) (hid : r'.id = r₁.id)
    (htarget : r'.target = r₁.target) (hdrains : w'.drains = w₁.drains.put r') :
    Rewrites w r r' w' := by
  refine ⟨hr, htarget.trans hold.target, fun id => ?_⟩
  have hput : w'.drain id = if r'.id = id then some r' else w₁.drain id := by
    rw [drain, hdrains]
    exact Table.find?_put _ _ _
  rw [hput, hid, hold.id, hw₁, drain_withDrain, hold.id]
  split_ifs <;> rfl

theorem turn_drainStep (e : Engine) (id : DrainId) (now : TimePoint) :
    DrainStep e.toWorld (.turn id now) (e.turn id now).1.toWorld := by
  rcases turn_effect e id now with ⟨heq, -⟩ | ⟨r, r₁, evidence, w₁, hr, -, held, hw₁, hact⟩
  · rw [heq]
    exact .same rfl rfl
  have hold := held.hold
  obtain rfl := id_of_drain hr
  have hfence : w₁.fence = e.fence := by rw [hw₁]; rfl
  rcases hact with ⟨hworld, -⟩ | hact
  · rw [hworld, hw₁]
    exact .holds ⟨hr, hold.target, fun id => by rw [drain_withDrain, hold.id]; rfl⟩ hold rfl
  generalize (e.turn r.id now).1.toWorld = w' at hact ⊢
  generalize (e.turn r.id now).2 = requests at hact
  -- In every case the record before the turn and the one that acts agree on what is kept.
  cases hact with
  | held held' =>
    exact .holds (rewrites_of_act hr hold hw₁ held'.hold.id held'.hold.target rfl)
      (hold.trans held'.hold) hfence
  | requested _ _ hold' =>
    exact .holds (rewrites_of_act hr hold hw₁ hold'.id hold'.target rfl) (hold.trans hold') hfence
  | @moved next detail hf =>
    have hphase := DrainRecord.phase_moved (r := r₁) hf.ne_blocked.2 now detail
    refine .moves (q := r₁.moved next now detail) (rewrites_of_act hr hold hw₁ rfl rfl rfl) ?_
      hphase.symm hold.generation hold.restoredAt hfence
    rw [phase_of_hold hold rfl hf.ne_blocked.1, hphase]
    exact .forward hf
  | @closed fence generation r' hs hstart hclose hr' =>
    obtain ⟨hheld, hservice⟩ := evaluateStart_nil hstart
    rw [hold.target, hold.id, hfence] at hheld
    rw [hold.target, hw₁] at hservice
    rw [hold.target, hold.id, hfence] at hclose
    have hphase := phase_of_hold hold hs (by decide)
    have hkept : r'.id = r₁.id ∧ r'.target = r₁.target ∧ r'.restoredAt = r₁.restoredAt ∧
        generation = r'.generation := by
      rcases hr' with ⟨detail, rfl⟩ | ⟨-, rfl⟩ <;> exact ⟨rfl, rfl, rfl, rfl⟩
    obtain ⟨hid, htarget, hrestored, rfl⟩ := hkept
    refine .closes (rewrites_of_act hr hold hw₁ hid htarget rfl) hphase hheld hservice hclose
      (hrestored.trans hold.restoredAt) ?_
    rcases hr' with ⟨detail, hr'⟩ | ⟨hrev, hr'⟩
    · exact Or.inl (by rw [hr']; rfl)
    · refine Or.inr ⟨?_, by rw [hr']; exact hrev⟩
      rw [hr']
      exact hold.phase.trans hphase
  | closeFailed hs hstart hclose hold' =>
    obtain ⟨hheld, -⟩ := evaluateStart_nil hstart
    rw [hold.target, hold.id, hfence] at hheld
    rw [hold.target, hold.id, hfence] at hclose
    exact .closeFails (rewrites_of_act hr hold hw₁ hold'.id hold'.target rfl) (hold.trans hold')
      (phase_of_hold hold hs (by decide)) hheld hclose
  | retired hs hq =>
    rw [hw₁]
    exact .holds ⟨hr, hold.target, fun id => by
      rw [← hold.id]; exact drain_withDrain (e.toWorld.withEvidence evidence) r₁ id⟩ hold rfl
  | removed hs hq hret hnode hstatus hok hset hobs hr' =>
    rcases hr' with hold' | ⟨detail, rfl⟩
    · exact .holds (rewrites_of_act hr hold hw₁ hold'.id hold'.target rfl) (hold.trans hold')
        hfence
    · refine .moves (q := r₁.moved .verifying now detail)
        (rewrites_of_act hr hold hw₁ rfl rfl rfl) ?_ rfl hold.generation hold.restoredAt hfence
      rw [phase_of_hold hold hs (by decide)]
      exact .remove
  | observed hs hq hret hown hobs hr' =>
    rcases hr' with hold' | ⟨detail, rfl⟩
    · exact .holds (rewrites_of_act hr hold hw₁ hold'.id hold'.target rfl) (hold.trans hold')
        hfence
    · refine .moves (q := r₁.moved .verifying now detail)
        (rewrites_of_act hr hold hw₁ rfl rfl rfl) ?_ rfl hold.generation hold.restoredAt hfence
      rw [phase_of_hold hold hs (by decide)]
      exact .remove
  | completed detail hs hobs hv =>
    refine .moves
      (q := ((w₁.withEvidence _).completionRecord r₁ _ now).moved .drained now detail)
      (rewrites_of_act hr hold hw₁ rfl rfl rfl) ?_ rfl hold.generation hold.restoredAt hfence
    rw [phase_of_hold hold hs (by decide)]
    exact .complete
  | settled detail hs htop =>
    exact .settles
      (q := (r₁.moved .cancelled now detail).markRestored now r₁.restoreGeneration)
      (rewrites_of_act hr hold hw₁ rfl rfl rfl) (phase_of_hold hold hs (by decide)) rfl
      hold.generation rfl hfence
  | settleFailed hs hrev htop hold' =>
    exact .holds (rewrites_of_act hr hold hw₁ hold'.id hold'.target rfl) (hold.trans hold') hfence

theorem apply_drainStep (e : Engine) (c : Call) :
    DrainStep e.toWorld (.call c) (e.apply c).toWorld := by
  have h := apply_effect e c
  generalize (e.apply c).toWorld = w' at h ⊢
  cases h with
  | quiet hq => exact .same hq.drains hq.fence
  | @held _ w₁ now r r' hq hr held =>
    refine .holds ⟨hr, held.hold.target, fun id => ?_⟩ held.hold hq.fence
    rw [drain_withDrain, held.hold.id, drain, hq.drains]
    rfl
  | resourceAdded | statusReported | admitted | reported => exact .same rfl rfl
  | requested hfree hspawn => exact .spawns hfree hspawn
  | @cancelled id authority reason now r detail hr hdrained hcancelled =>
    obtain rfl := id_of_drain hr
    exact .cancels (q := r.moved .cancelled now detail)
      ⟨hr, rfl, fun id => drain_withDrain _ _ _⟩ hdrained hcancelled rfl rfl rfl rfl
  | @restorationStarted id authority reason now r fence reopened detail hr hset hdone hreopen =>
    obtain rfl := id_of_drain hr
    exact .reopens
      (q := { r.moved .restoring now detail with restoreGeneration := reopened })
      ⟨hr, rfl, fun id => drain_withDrain _ _ _⟩ hset hdone hreopen rfl rfl rfl
  | restorationFailed hr hset hdone hreopen hfail =>
    obtain rfl := id_of_drain hr
    exact .reopenFails hr hset hdone hreopen hfail rfl

/-- Every event is a step of the drains and the fence. -/
theorem fire_drainStep (e : Engine) (ev : Event) : DrainStep e.toWorld ev (e.fire ev).toWorld := by
  cases ev with
  | call c => exact apply_drainStep e c
  | turn id now => exact turn_drainStep e id now
  | restart prev now =>
    rcases restart_effect e prev now with hsame | hrecovered
    · rw [hsame]
      exact .same rfl rfl
    · exact .recovers hrecovered

/-- Every event is a step of the obligations. -/
theorem fire_obligationStep (e : Engine) (ev : Event) :
    ObligationStep e.toWorld ev (e.fire ev).toWorld := by
  cases ev with
  | call c =>
    have h := apply_effect e c
    show ObligationStep e.toWorld (.call c) (e.apply c).toWorld
    generalize (e.apply c).toWorld = w' at h ⊢
    cases h with
    | quiet hq => exact .same hq.obligations
    | held hq => exact .same hq.obligations
    | admitted hcheck hinsert => exact .admits hcheck hinsert rfl
    | reported hfind hfence happly => exact .reports hfind hfence happly rfl rfl
    | requested _ hspawn => exact .same (by rw [hspawn.obligations])
    | _ => exact .same rfl
  | turn id now =>
    show ObligationStep e.toWorld (.turn id now) (e.turn id now).1.toWorld
    rcases turn_effect e id now with ⟨heq, -⟩ | ⟨r, r₁, evidence, w₁, hr, -, held, hw₁, hact⟩
    · rw [heq]
      exact .same rfl
    obtain rfl := id_of_drain hr
    have hobl : w₁.obligations = e.obligations := by rw [hw₁]; rfl
    rcases hact with ⟨hworld, -⟩ | hact
    · rw [hworld]
      exact .same (by rw [hobl])
    generalize (e.turn r.id now).1.toWorld = w' at hact ⊢
    generalize (e.turn r.id now).2 = requests at hact
    cases hact with
    | retired hs hq =>
      have hphase := phase_of_hold held.hold hs (by decide)
      have hev : evidence = e.evidence := held.unobserved (by simp [hphase])
      have hret : w₁.retirable r₁ now = e.retirable r now := by
        rw [hw₁, hev]
        exact retirable_of_hold held.hold hphase now
      refine .retires hr hphase ?_ (by rw [hw₁]; rfl)
      rw [← hret, ← hobl]
      rfl
    | _ => exact .same (by rw [← hobl]; rfl)
  | restart prev now =>
    rcases restart_effect e prev now with hsame | hrecovered
    · rw [hsame]
      exact .same rfl
    · exact .recovers hrecovered.obligations

/-- Every event is a step of the resources. -/
theorem fire_resourceStep (e : Engine) (ev : Event) :
    ResourceStep e.toWorld ev (e.fire ev).toWorld := by
  cases ev with
  | call c =>
    have h := apply_effect e c
    show ResourceStep e.toWorld (.call c) (e.apply c).toWorld
    generalize (e.apply c).toWorld = w' at h ⊢
    cases h with
    | quiet hq => exact .same hq.resources
    | held hq => exact .same hq.resources
    | resourceAdded hfree hput => exact .adds hfree hput
    | statusReported hset => exact .reports hset
    | requested _ hspawn => exact .same (by rw [hspawn.topology])
    | _ => exact .same rfl
  | turn id now =>
    show ResourceStep e.toWorld (.turn id now) (e.turn id now).1.toWorld
    rcases turn_effect e id now with ⟨heq, -⟩ | ⟨r, r₁, evidence, w₁, hr, -, held, hw₁, hact⟩
    · rw [heq]
      exact .same rfl
    obtain rfl := id_of_drain hr
    have hold := held.hold
    have htop : w₁.topology = e.topology := by rw [hw₁]; rfl
    -- Ownership and validation read the target and what is not touched before the drain acts.
    have howned : w₁.removalOwnedBy r₁ = e.removalOwnedBy r := by
      rw [hw₁]
      simp only [removalOwnedBy, hold.id, hold.target]
      rfl
    have hviolation : w₁.removalViolation r₁ = e.removalViolation r := by
      rw [hw₁]
      simp only [removalViolation, hold.target]
      rfl
    rcases hact with ⟨hworld, -⟩ | hact
    · rw [hworld]
      exact .same (by rw [htop])
    generalize (e.turn r.id now).1.toWorld = w' at hact ⊢
    generalize (e.turn r.id now).2 = requests at hact
    cases hact with
    | removed hs _ _ hnode hstatus hok hset =>
      rw [htop, hold.target] at hnode hset
      exact .removes hr (phase_of_hold hold hs (by decide)) hnode hstatus (hviolation ▸ hok) hset
    | settled detail hs hcase =>
      rw [htop, hold.target, howned] at hcase
      rcases hcase with rfl | ⟨hown, hset⟩
      · exact .same rfl
      · exact .restores hr (phase_of_hold hold hs (by decide)) hown hset
    | settleFailed hs _ hcase =>
      rw [htop, hold.target, howned] at hcase
      rcases hcase with rfl | ⟨hown, hset⟩
      · exact .same rfl
      · exact .restores hr (phase_of_hold hold hs (by decide)) hown hset
    | _ => exact .same (by rw [← htop]; rfl)
  | restart prev now =>
    rcases restart_effect e prev now with hsame | hrecovered
    · rw [hsame]
      exact .same rfl
    · exact .same hrecovered.resources

end Engine

end DrainFabric
