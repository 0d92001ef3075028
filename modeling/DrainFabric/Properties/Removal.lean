import DrainFabric.Properties.Completion

/-!
# Removal

Which drain took a resource out of service is not stored. The runtime infers it: the
resource is unavailable and the fence of its target is closed by the drain. The
inference is right as long as nobody else withdraws a resource that a drain has
fenced: not a status report, and not a second drain that names the same resource by
another target.

* `removal_performed` — under that condition, a drain that enters `Verifying` or
  `Drained` has itself removed its resource, validly, and nobody undid it;
* `removal_performed_fails` — a run in which a status report makes the drain claim a
  removal it never performed.
-/

namespace DrainFabric

open Lib World Engine

variable {w : World} {r r' : DrainRecord} {now : TimePoint} {id : DrainId} {e : Engine}

/-- The resource an event reports as unavailable. -/
def Event.withdraws : Event → Option ResourceId
  | .call (.reportResourceStatus id .unavailable _) => some id
  | _ => none

/-- The event does not report a resource as unavailable that a drain has fenced, and
no two drains have fenced the same resource. -/
def RemovesAlone (e : Engine) (ev : Event) : Prop :=
  (∀ id ∈ ev.withdraws, ∀ r ∈ e.drains.toList, isFenceHoldingState r.phase = true →
    r.target.id ≠ id) ∧
  ∀ r ∈ e.drains.toList, ∀ q ∈ e.drains.toList, isFenceHoldingState r.phase = true →
    isFenceHoldingState q.phase = true → r.target.id = q.target.id → r.id = q.id

instance (e : Engine) (ev : Event) : Decidable (RemovesAlone e ev) :=
  inferInstanceAs (Decidable ((∀ id ∈ ev.withdraws, ∀ r ∈ e.drains.toList,
    isFenceHoldingState r.phase = true → r.target.id ≠ id) ∧
    ∀ r ∈ e.drains.toList, ∀ q ∈ e.drains.toList, isFenceHoldingState r.phase = true →
      isFenceHoldingState q.phase = true → r.target.id = q.target.id → r.id = q.id))

/-- The drain has fenced its target under the generation, and the resource is out of
service. -/
def World.Removed (w : World) (id : DrainId) (target : DrainTarget) (generation : Generation) :
    Prop :=
  ∃ r, w.drain id = some r ∧ r.target = target ∧ r.generation = generation ∧
    isFenceHoldingState r.phase = true ∧ w.OutOfService target.id

/-- The world is about to see the removal step of the drain: it still is in service,
and may be removed. -/
def World.Removable (w : World) (id : DrainId) (target : DrainTarget) (generation : Generation) :
    Prop :=
  ∃ r node, w.drain id = some r ∧ r.target = target ∧ r.generation = generation ∧
    w.topology.resource target.id = some node ∧ node.status = .inService ∧
    (w.removalViolation r).ok = true

/-- A drain that has fenced its target knows the resource behind it. -/
def World.Backed (w : World) : Prop :=
  ∀ id r, w.drain id = some r → isFenceHoldingState r.phase = true →
    ∃ node, w.topology.resource r.target.id = some node

/-! ### Entering `Verifying` -/

theorem outOfService_of_verified (h : (w.evaluateVerification r now).1 = []) :
    w.OutOfService r.target.id := by
  have hverified : w.evaluateVerification r now = ([], (w.evaluateVerification r now).2) :=
    Prod.ext h rfl
  exact (removalOwnedBy_iff.mp (evaluateVerification_nil hverified).1).1

/-- A drain is only resumed into `Verifying` with its resource out of service. -/
theorem outOfService_of_held {evidence : EvidenceLedger} (h : Held now r w r' evidence)
    (hbefore : r.state ≠ .verifying) (hafter : r'.state = .verifying) :
    w.OutOfService r.target.id := by
  have hphase : r.phase = .verifying := h.hold.phase ▸ DrainRecord.phase_of_state hafter (by decide)
  have hblocked : r.state = .blocked := by
    by_contra hne
    exact hbefore (by rw [← hphase, DrainRecord.phase_of_not_blocked hne])
  have hclear := h.cleared hblocked (by simp [hafter])
  rw [hphase] at hclear
  exact outOfService_of_verified (w := w.withEvidence evidence) hclear

/-- An action that leaves the drain in `Verifying`, where it was not, finds or puts
the resource out of service. -/
theorem outOfService_of_act {w' : World} {requests : List EvacuationRequest}
    (h : Act now r w w' requests) (hr : w.drain r.id = some r) (hbefore : r.state ≠ .verifying)
    (hr' : w'.drain r.id = some r') (hafter : r'.state = .verifying) :
    w'.OutOfService r.target.id := by
  -- The record left behind is the one stored last.
  have hstored : ∀ {w₁ : World} {q : DrainRecord}, (w₁.withDrain q).drain r.id = some r' →
      q.id = r.id → q.state = .verifying := by
    intro w₁ q h hid
    rw [drain_withDrain, if_pos hid] at h
    rwa [Option.some.inj h]
  -- A record that is held keeps its phase, so only `Blocked` leads on to `Verifying`.
  have hheld : ∀ {w₁ : World} {q : DrainRecord}, (w₁.withDrain q).drain r.id = some r' →
      Hold r q → r.state = .blocked := by
    intro w₁ q h hold
    have hphase : r.phase = .verifying :=
      hold.phase ▸ DrainRecord.phase_of_state (hstored h hold.id) (by decide)
    by_contra hne
    exact hbefore (by rw [← hphase, DrainRecord.phase_of_not_blocked hne])
  cases h with
  | held h => exact outOfService_of_held (w := w) h hbefore (hstored hr' h.hold.id)
  | requested hs _ hold => cases hs.symm.trans (hheld hr' hold)
  | @moved next _ hf =>
    obtain rfl : next = .verifying := hstored hr' rfl
    generalize r.state = source at hf
    cases hf
  | closed hs _ _ hq =>
    rcases hq with ⟨detail, rfl⟩ | ⟨-, rfl⟩
    · cases hstored hr' rfl
    · exact absurd (hstored hr' rfl) hbefore
  | closeFailed hs _ _ hold => cases hs.symm.trans (hheld hr' hold)
  | retired =>
    obtain rfl := Option.some.inj (hr.symm.trans hr')
    exact absurd hafter hbefore
  | @removed node _ _ _ _ _ _ hnode _ _ hset =>
    exact ⟨_, (Topology.resource_setStatus hset _).trans (by rw [if_pos rfl, hnode]; rfl), rfl⟩
  | observed _ _ _ howned => exact (removalOwnedBy_iff.mp howned).1
  | completed _ hs => exact absurd hs hbefore
  | settled => cases hstored hr' rfl
  | settleFailed hs _ _ hold => cases hs.symm.trans (hheld hr' hold)

/-- Whenever a call leaves a drain in `Verifying`, where it was not, its resource is
out of service. -/
theorem outOfService_of_call {w' : World} {c : Call} (h : CallEffect w c w')
    (hbefore : ∀ r, w.drain id = some r → r.state ≠ .verifying) (hr' : w'.drain id = some r')
    (hafter : r'.state = .verifying) : w'.OutOfService r'.target.id := by
  -- A call that stores one record leaves the others as they were.
  have hstored : ∀ {w₁ : World} {q : DrainRecord}, w₁.drains = w.drains →
      (w₁.withDrain q).drain id = some r' → q.id = id ∧ q = r' := by
    intro w₁ q hdrains h
    rw [drain_withDrain] at h
    split_ifs at h with hid
    · exact ⟨hid, Option.some.inj h⟩
    · rw [drain, hdrains] at h
      exact absurd hafter (hbefore r' h)
  cases h with
  | quiet hq =>
    rw [drain, hq.drains] at hr'
    exact absurd hafter (hbefore r' hr')
  | @held _ w₁ now r q hq hr held =>
    obtain ⟨hid, rfl⟩ := hstored hq.drains hr'
    have hbefore' := hbefore r (by rw [← hid, held.hold.id]; exact hr)
    rw [held.hold.target]
    exact outOfService_of_held (w := w₁) held hbefore' hafter
  | requested _ hspawn =>
    cases hw : w.drain id with
    | none =>
      obtain ⟨-, hs, -⟩ := hspawn.fresh id r' hr' hw
      cases hs.symm.trans hafter
    | some r =>
      obtain rfl := Option.some.inj ((hspawn.kept id r hw).symm.trans hr')
      exact absurd hafter (hbefore r hw)
  | cancelled =>
    obtain ⟨-, rfl⟩ := hstored rfl hr'
    cases hafter
  | restorationStarted =>
    obtain ⟨-, rfl⟩ := hstored rfl hr'
    cases hafter
  | _ => exact absurd hafter (hbefore r' hr')

/-- The same for the turn of the drain, which may resume it first and then act. -/
theorem outOfService_of_turn (hr : e.drain id = some r) (hbefore : r.state ≠ .verifying)
    (hr' : (e.turn id now).1.drain id = some r') (hafter : r'.state = .verifying) :
    (e.turn id now).1.OutOfService r.target.id := by
  rcases turn_effect e id now with ⟨heq, -⟩ | ⟨q, r₁, evidence, w₁, hq, -, held, hw₁, hact⟩
  · rw [heq] at hr'
    obtain rfl := Option.some.inj (hr.symm.trans hr')
    exact absurd hafter hbefore
  obtain rfl := Option.some.inj (hr.symm.trans hq)
  obtain rfl := id_of_drain hr
  have hr₁ : w₁.drain r.id = some r₁ := by rw [hw₁, drain_withDrain, if_pos held.hold.id]
  have hready : r₁.state = .verifying → w₁.OutOfService r.target.id := by
    intro hs
    have hout := outOfService_of_held held hbefore hs
    rw [hw₁]
    exact hout
  rcases hact with ⟨hworld, -⟩ | hact
  · rw [hworld] at hr' ⊢
    obtain rfl := Option.some.inj (hr₁.symm.trans hr')
    exact hready hafter
  generalize (e.turn r.id now).1.toWorld = w' at hact hr' ⊢
  by_cases hs : r₁.state = .verifying
  · -- Verification itself leaves the resources alone.
    rcases act_of_verifying hact (DrainRecord.phase_of_state hs (by decide)) with
      ⟨_, _, -, rfl⟩ | ⟨_, _, _, -, -, rfl⟩ <;> exact hready hs
  · rw [← held.hold.id] at hr₁ hr'
    rw [← held.hold.target]
    exact outOfService_of_act hact hr₁ hs hr' hafter

/-- Whenever a drain enters `Verifying`, its resource is out of service. -/
theorem outOfService_of_fire {ev : Event}
    (hbefore : ∀ r, e.drain id = some r → r.state ≠ .verifying)
    (hr' : (e.fire ev).drain id = some r') (hafter : r'.state = .verifying) :
    (e.fire ev).OutOfService r'.target.id := by
  cases ev with
  | call c => exact outOfService_of_call (apply_effect e c) hbefore hr' hafter
  | turn other now =>
    by_cases hown : id = other
    · subst hown
      have hfate := (turn_drainStep e id now).fate hr'
      cases hr : e.drain id with
      | none =>
        obtain ⟨c, hc, -⟩ := hfate.of_none hr
        cases hc
      | some r =>
        rw [hfate.target hr]
        exact outOfService_of_turn hr (hbefore r hr) hr' hafter
    · have hsame := (turn_frame e other now).others id hown
      exact absurd hafter (hbefore r' (hsame.symm.trans hr'))
  | restart prev now =>
    rcases restart_effect e prev now with heq | hrec
    · rw [heq] at hr'
      exact absurd hafter (hbefore r' hr')
    · obtain ⟨r, hr, hrestart⟩ := hrec.of_drain hr'
      have hs := hrestart.state.symm.trans hafter
      split_ifs at hs
      exact absurd hs (hbefore r hr)

/-! ### Holding the fence -/

theorem backed_fire (e : Engine) (ev : Event) (inv : Backed e.toWorld) :
    Backed (e.fire ev).toWorld := by
  intro id r' hr' hp
  have hfate := (fire_drainStep e ev).fate hr'
  obtain ⟨r, hr, hcase⟩ := hfate.fenceHolding hp
  rw [hfate.target hr]
  obtain ⟨node, hnode⟩ : ∃ node, e.topology.resource r.target.id = some node := by
    rcases hcase with hp | ⟨-, -, node, hnode, -⟩
    · exact inv id r hr hp
    · exact ⟨node, hnode⟩
  exact (fire_resourceStep e ev).persists hnode

/-- A turn changes resources only in the removal step and in restoration. -/
theorem resources_turn (hr : e.drain id = some r) (hquiescing : r.phase ≠ .quiescing)
    (hrestoring : r.phase ≠ .restoring) (now : TimePoint) :
    (e.turn id now).1.topology.resources = e.topology.resources := by
  rcases (fire_resourceStep e (.turn id now)).of_turn with heq | ⟨q, hq, hphase⟩
  · exact heq
  · obtain rfl := Option.some.inj (hr.symm.trans hq)
    exact absurd hphase (not_or.mpr ⟨hquiescing, fun h => hrestoring h.1⟩)

/-! ### The removal behind a claim -/

/-- A resource that left service did so in the removal step of the drain that has
fenced it. -/
theorem removable_of_outOfService {ev : Event} (inv : Backed e.toWorld) (hev : RemovesAlone e ev)
    (hr : e.drain id = some r) (hp : isFenceHoldingState r.phase = true)
    (hbefore : ¬ e.OutOfService r.target.id) (hafter : (e.fire ev).OutOfService r.target.id) :
    ∃ now, ev = .turn id now ∧ e.Removable id r.target r.generation := by
  obtain ⟨node, hnode, hstatus⟩ := hafter
  have hsame : e.topology.resource r.target.id ≠ some node := fun h => hbefore ⟨node, h, hstatus⟩
  have hmem : r ∈ e.drains.toList := Table.mem_of_find? hr
  -- A status was set; it was that of this resource.
  have hset : ∀ {other : ResourceId} {status : ResourceStatus},
      e.topology.setStatus other status = .ok (e.fire ev).topology →
      r.target.id = other ∧ status = .unavailable := by
    intro other status hset
    rw [Topology.resource_setStatus hset] at hnode
    split_ifs at hnode with hid
    · obtain ⟨_, -, rfl⟩ := Option.map_eq_some_iff.mp hnode
      exact ⟨hid, hstatus⟩
    · exact absurd hnode hsame
  have hstep := fire_resourceStep e ev
  generalize (e.fire ev).toWorld = w' at hstep hnode hset
  cases hstep with
  | same heq =>
    rw [Topology.resource, heq] at hnode
    exact absurd hnode hsame
  | adds hfree hput =>
    obtain ⟨known, hknown⟩ := inv id r hr hp
    rw [Topology.resource, hput, Table.find?_put] at hnode
    split_ifs at hnode with hid
    · cases (hid ▸ hfree).symm.trans hknown
    · exact absurd hnode hsame
  | reports h =>
    obtain ⟨rfl, rfl⟩ := hset h
    exact absurd rfl (hev.1 _ rfl r hmem hp)
  | @removes now q before _ hq hphase hservice hstatus' hok h =>
    obtain ⟨hid, -⟩ := hset h
    have hown : r.id = q.id := hev.2 r hmem q (Table.mem_of_find? hq) hp
      (by simp [hphase, isFenceHoldingState]) hid
    rw [id_of_drain hr] at hown
    subst hown
    obtain rfl := Option.some.inj (hr.symm.trans hq)
    exact ⟨now, rfl, r, before, hr, rfl, rfl, hservice, hstatus', hok⟩
  | restores _ _ _ h =>
    obtain ⟨-, h⟩ := hset h
    cases h

/-- A removal that stands at the end of a run was performed by the drain. -/
theorem removed_run {policy : DrainPolicy} {events : List Event}
    (hrun : Always fire RemovesAlone (Engine.init policy) events) {target : DrainTarget}
    {generation : Generation}
    (h : (run fire (Engine.init policy) events).Removed id target generation) :
    ∃ pre now post, events = pre ++ .turn id now :: post ∧
      (run fire (Engine.init policy) pre).Removable id target generation ∧
      ∀ since, since <+: post →
        (run fire (Engine.init policy) (pre ++ .turn id now :: since)).OutOfService target.id := by
  obtain ⟨pre, ev, post, hsplit, hpre, hsince⟩ := exists_last_rise
    (Q := fun e : Engine => e.Removed id target generation)
    (fun ⟨r, hr, _⟩ => by simp at hr) h
  have hev := (hsplit ▸ hrun).at_split
  have inv : Backed (run fire (Engine.init policy) pre).toWorld :=
    run_invariant (P := fun e : Engine => Backed e.toWorld) (C := fun _ _ => True)
      (fun e ev h _ => backed_fire e ev h) (fun _ _ hr => by simp at hr)
      (always_of_forall (fun _ _ _ => trivial) _)
  obtain ⟨r', hr', rfl, rfl, hp', hout⟩ := hsince [] List.nil_prefix
  rw [run_concat] at hr' hout
  have hfate := (fire_drainStep _ ev).fate hr'
  obtain ⟨r, hr, hcase⟩ := hfate.fenceHolding hp'
  have htarget := hfate.target hr
  have houts : ∀ since, since <+: post →
      (run fire (Engine.init policy) (pre ++ ev :: since)).OutOfService r'.target.id := by
    intro since hprefix
    obtain ⟨_, -, -, -, -, hout⟩ := hsince since hprefix
    exact hout
  rcases hcase with hp | ⟨hphase, ⟨now, rfl⟩, node, hnode, hstatus⟩
  · have hgen := hfate.generation hr (fun h => by simp [h, isFenceHoldingState] at hp)
    rw [htarget] at hpre hout houts ⊢
    rw [hgen] at hpre ⊢
    obtain ⟨now, rfl, hremovable⟩ := removable_of_outOfService inv hev hr hp
      (fun hout => hpre ⟨r, hr, rfl, rfl, hp, hout⟩) hout
    exact ⟨pre, now, post, hsplit, hremovable, houts⟩
  · -- The turn that closes admission leaves the resource in service.
    have hres := resources_turn hr (by simp [hphase]) (by simp [hphase]) now
    obtain ⟨node', hnode', hstatus'⟩ := hout
    rw [htarget, Topology.resource, fire, hres] at hnode'
    obtain rfl := Option.some.inj (hnode.symm.trans hnode')
    cases hstatus.symm.trans hstatus'

/-- In a run in which nobody else withdraws a resource that a drain has fenced: a
drain that enters `Verifying` or `Drained` earlier took its resource out of service
itself, under the same generation and when removing it was valid, and the resource
has been out of service ever since. -/
theorem removal_performed {policy : DrainPolicy} {events : List Event} {last : Event}
    (hrun : Always fire RemovesAlone (Engine.init policy) (events ++ [last])) {id : DrainId}
    {r : DrainRecord}
    (hnot : ∀ q, (run fire (Engine.init policy) events).drain id = some q → q.state ≠ r.state)
    (hr : (run fire (Engine.init policy) (events ++ [last])).drain id = some r)
    (hstate : r.state = .verifying ∨ r.state = .drained) :
    ∃ pre now post, events ++ [last] = pre ++ .turn id now :: post ∧
      (run fire (Engine.init policy) pre).Removable id r.target r.generation ∧
      ∀ since, since <+: post →
        (run fire (Engine.init policy) (pre ++ .turn id now :: since)).OutOfService
          r.target.id := by
  rcases hstate with hs | hs
  · -- At the entry into `Verifying` the removal stands.
    have hp : isFenceHoldingState r.phase = true := by
      simp [DrainRecord.phase_of_state hs, isFenceHoldingState]
    refine removed_run hrun ⟨r, hr, rfl, rfl, hp, ?_⟩
    rw [run_concat] at hr ⊢
    exact outOfService_of_fire (fun q hq h => hnot q hq (h.trans hs.symm)) hr hs
  · -- `Drained` is entered from `Verifying`, and the removal stood before that turn.
    have hlast := hr
    rw [run_concat] at hlast
    have hnot' : ∀ q, (run fire (Engine.init policy) events).drain id = some q →
        q.state ≠ .drained := fun q hq h => hnot q hq (h.trans hs.symm)
    have inv : Fenced (run fire (Engine.init policy) events).toWorld :=
      fenced_run (fenced_init policy) events
    obtain ⟨now, q, rfl, hq, hphase⟩ := completes_inv (fire_drainStep _ last) hnot' hlast hs
    obtain ⟨_, -, hsealed⟩ := sealed_of_fire inv hnot' hlast hs
    have hfate := (fire_drainStep _ _).fate hlast
    have htarget := hfate.target hq
    have hgen := hfate.generation hq (by simp [hphase])
    have hbefore : (run fire (Engine.init policy) events).OutOfService r.target.id := by
      have hout := hsealed.resource
      rwa [OutOfService, Topology.resource, fire,
        resources_turn hq (by simp [hphase]) (by simp [hphase]) now] at hout
    obtain ⟨pre, now', post, rfl, hremovable, hsince⟩ := removed_run (always_append.mp hrun).1
      ⟨q, hq, htarget.symm, hgen.symm, by simp [hphase, isFenceHoldingState], hbefore⟩
    refine ⟨pre, now', post ++ [.turn id now], by simp, hremovable, fun since hprefix => ?_⟩
    rcases List.prefix_concat_iff.mp hprefix with rfl | hprefix
    · rw [show pre ++ Event.turn id now' :: (post ++ [.turn id now]) =
        (pre ++ .turn id now' :: post) ++ [.turn id now] by simp, run_concat]
      exact hsealed.resource
    · exact hsince since hprefix

theorem removal_performed_onePort :
    ∃ r, (run fire (Engine.init {})
        ((OnePort.setup 1).map .call ++ OnePort.turns 4 1 ++ [.turn 1 1])).drain 1 = some r ∧
      r.state = .drained ∧
      ∃ pre now post,
        (OnePort.setup 1).map .call ++ OnePort.turns 4 1 ++ [.turn 1 1] =
          pre ++ .turn 1 now :: post ∧
        (run fire (Engine.init {}) pre).Removable 1 r.target r.generation ∧
        ∀ since, since <+: post →
          (run fire (Engine.init {}) (pre ++ .turn 1 now :: since)).OutOfService r.target.id := by
  have hrun : Always fire RemovesAlone (Engine.init {})
      ((OnePort.setup 1).map .call ++ OnePort.turns 4 1 ++ [.turn 1 1]) := by
    decide +kernel
  have hbefore : ((run fire (Engine.init {})
      ((OnePort.setup 1).map .call ++ OnePort.turns 4 1)).drain 1).all
      (fun q => q.state ≠ .drained) = true := by
    decide +kernel
  have hafter : ((run fire (Engine.init {})
      ((OnePort.setup 1).map .call ++ OnePort.turns 4 1 ++ [.turn 1 1])).drain 1).any
      (fun r => r.state = .drained) = true := by
    decide +kernel
  obtain ⟨r, hr, hs⟩ := Option.any_eq_true _ _ |>.mp hafter
  rw [decide_eq_true_iff] at hs
  exact ⟨r, hr, hs, removal_performed hrun (fun q hq => by simpa [hq, hs] using hbefore) hr
    (Or.inr hs)⟩

/-- The port is reported as unavailable while its drain is quiescing. -/
def OnePort.withdrawnPort : List Event :=
  (OnePort.setup 1).map .call ++ OnePort.turns 3 1 ++
    [.call (.reportResourceStatus "p1" .unavailable 1)]

/-- The drain goes on to verify and complete a removal it never performed: before the
report the port was in service in every state, and after it no turn found it so. -/
theorem removal_performed_fails :
    (∀ pre ∈ ((OnePort.setup 1).map Event.call ++ OnePort.turns 3 1).inits,
      ((run fire (Engine.init {}) pre).topology.resource "p1").all
        (fun node => node.status = .inService) = true) ∧
      (∀ count ≤ 2, ((run fire (Engine.init {})
        (OnePort.withdrawnPort ++ OnePort.turns count 1)).topology.resource "p1").map
          ResourceNode.status = some .unavailable) ∧
      ((run fire (Engine.init {}) OnePort.withdrawnPort).drain 1).map
        (fun r => (r.state, r.target)) = some (.quiescing, OnePort.port) ∧
      ((run fire (Engine.init {}) (OnePort.withdrawnPort ++ OnePort.turns 1 1)).drain 1).map
        DrainRecord.state = some .verifying ∧
      ((run fire (Engine.init {}) (OnePort.withdrawnPort ++ OnePort.turns 2 1)).drain 1).map
        DrainRecord.state = some .drained := by
  decide +kernel

end DrainFabric
