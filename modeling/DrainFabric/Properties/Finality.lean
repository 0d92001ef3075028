import DrainFabric.Properties.Ownership

/-!
# Finality

A drain that was cancelled or is being restored never takes up its work again. The
lifecycle table alone does not say so, since `Blocked` may go to any active state: it
is the phase behind `Blocked` that stays `Restoring`.

* `cancelled_is_final` — what such a drain is limited to in every later state.
-/

namespace DrainFabric

open Lib World Engine AdmissionFence

variable {id : DrainId} {e : Engine}

/-- The drain was cancelled or is being restored. -/
def World.Withdrawn (w : World) (id : DrainId) : Prop :=
  ∃ r, w.drain id = some r ∧ (r.state = .cancelled ∨ r.phase = .restoring)

/-- What a withdrawn drain is limited to: its state, the requests of a pass, the fences
a pass leaves closed in its name, and what its own turn does to the fence and the
resources. -/
structure Final (id : DrainId) (e : Engine) : Prop where
  state : ∃ r, e.drain id = some r ∧
    (r.state = .cancelled ∨ r.state = .restoring ∨
      r.state = .blocked ∧ r.blockedFrom = some .restoring)
  requests : ∀ now, ∀ q ∈ (e.advance now).2.evacuations, q.drain ≠ id
  closures : ∀ now target generation,
    (e.advance now).1.fence.HeldBy target id generation → e.fence.HeldBy target id generation
  fence : ∀ now, (e.turn id now).1.fence = e.fence
  resources : ∀ now resource, (e.turn id now).1.OutOfService resource → e.OutOfService resource

/-! ### The state -/

/-- A withdrawn drain is in none of the phases that lead on to completion. -/
theorem phase_of_withdrawn {w : World} {r : DrainRecord} (h : w.Withdrawn id)
    (hr : w.drain id = some r) : r.phase = .cancelled ∨ r.phase = .restoring := by
  obtain ⟨q, hq, hcase⟩ := h
  obtain rfl := Option.some.inj (hq.symm.trans hr)
  exact hcase.imp_left (fun hs => (phase_of_settled (by simp [hs, isSettled])).trans hs)

theorem withdrawn_fire (e : Engine) (ev : Event) (h : e.Withdrawn id) :
    (e.fire ev).Withdrawn id := by
  have hphase := fun r => phase_of_withdrawn (r := r) h
  obtain ⟨r, hr, hcase⟩ := h
  obtain ⟨r', hr'⟩ := (fire_drainStep e ev).persists hr
  refine ⟨r', hr', ?_⟩
  cases (fire_drainStep e ev).fate hr' with
  | born hnone => cases hnone.symm.trans hr
  | keeps hq kept =>
    obtain rfl := Option.some.inj (hr.symm.trans hq)
    rcases hcase with hs | hp
    · exact Or.inl ((kept.settled (by simp [hs, isSettled])).trans hs)
    · exact Or.inr (kept.phase.trans hp)
  | moves hq _ hpath =>
    -- No forward move starts in `Cancelled` or `Restoring`.
    rcases hphase _ hq with hp | hp <;>
    · rw [hp] at hpath
      cases hpath with
      | forward hf => cases hf
  | closes hq _ hvalidating | retries hq _ hvalidating =>
    rcases hphase _ hq with hp | hp <;> cases hp.symm.trans hvalidating
  | settles _ _ _ hs => exact Or.inl hs
  | cancels _ _ _ _ hs => exact Or.inl hs
  | reopens _ _ _ _ hs =>
    exact Or.inr (DrainRecord.phase_of_state hs (by decide))
  | refused hq =>
    obtain rfl := Option.some.inj (hr.symm.trans hq)
    exact hcase

theorem withdrawn_run (h : e.Withdrawn id) (events : List Event) :
    (run fire e events).Withdrawn id :=
  run_invariant (P := fun e : Engine => e.Withdrawn id) (C := fun _ _ => True)
    (fun e ev h _ => withdrawn_fire e ev h) h (always_of_forall (fun _ _ _ => trivial) e)

theorem state_of_withdrawn {w : World} (h : w.Withdrawn id) :
    ∃ r, w.drain id = some r ∧ (r.state = .cancelled ∨ r.state = .restoring ∨
      r.state = .blocked ∧ r.blockedFrom = some .restoring) := by
  obtain ⟨r, hr, hcase⟩ := h
  refine ⟨r, hr, hcase.imp_right (fun hp => ?_)⟩
  by_cases hb : r.state = .blocked
  · refine Or.inr ⟨hb, ?_⟩
    rw [DrainRecord.phase, if_pos hb] at hp
    cases hfrom : r.blockedFrom with
    | none => simp [hfrom] at hp
    | some source =>
      simp only [hfrom, Option.getD_some] at hp
      rw [hp]
  · exact Or.inl ((DrainRecord.phase_of_not_blocked hb).symm.trans hp)

/-! ### The turns of a pass -/

/-- The own turn of a withdrawn drain leaves the fence alone; any other turn closes
fences only in the name of its own drain. -/
theorem fence_turn (h : e.Withdrawn id) (other : DrainId) (now : TimePoint) :
    (other = id → (e.turn other now).1.fence = e.fence) ∧
      ∀ target generation, (e.turn other now).1.fence.HeldBy target id generation →
        e.fence.HeldBy target id generation := by
  have hstep := turn_drainStep e other now
  generalize (e.turn other now).1.toWorld = w' at hstep ⊢
  generalize hev : Event.turn other now = ev at hstep
  have hsame : w'.fence = e.fence → (other = id → w'.fence = e.fence) ∧
      ∀ target generation, w'.fence.HeldBy target id generation →
        e.fence.HeldBy target id generation :=
    fun heq => ⟨fun _ => heq, fun _ _ hheld => heq ▸ hheld⟩
  have hclosure : ∀ {r : DrainRecord} {at_ : TimePoint} {reason : String}
      {result : Result Generation}, Event.turn other now = .turn r.id at_ →
      e.drain r.id = some r → r.phase = .validating →
      (∀ entry, e.fence.entry r.target = some entry → entry.closed = true → entry.drain = r.id) →
      e.fence.close r.target r.id at_ reason = (w'.fence, result) →
      (other = id → w'.fence = e.fence) ∧ ∀ target generation,
        w'.fence.HeldBy target id generation → e.fence.HeldBy target id generation := by
    intro r at_ reason result hev hr hvalidating hfree hclose
    have hne : id ≠ r.id := by
      rintro rfl
      rcases phase_of_withdrawn h hr with hp | hp <;> cases hp.symm.trans hvalidating
    exact ⟨fun hown => absurd (hown.symm.trans (Event.turn.inj hev).1) hne,
      fun target generation => (close_keeps hclose hfree hne).heldBy⟩
  cases hstep with
  | stays _ _ hfence => exact hsame hfence
  | moves _ _ _ _ _ hfence => exact hsame hfence
  | closes hrw hphase hfree _ hclose => exact hclosure hev hrw.before hphase hfree hclose
  | closeFails hrw _ hphase hfree hclose => exact hclosure hev hrw.before hphase hfree hclose
  | settles _ _ _ _ _ hfence => exact hsame hfence
  | _ => cases hev

/-- The turn of a withdrawn drain takes no resource out of service. -/
theorem outOfService_turn (h : e.Withdrawn id) {now : TimePoint} {resource : ResourceId}
    (hout : (e.turn id now).1.OutOfService resource) : e.OutOfService resource := by
  obtain ⟨node, hnode, hstatus⟩ := hout
  rcases (fire_resourceStep e (.turn id now)).of_turn with
    heq | ⟨r, hr, hquiescing | ⟨-, hset⟩⟩
  · exact ⟨node, by rwa [Topology.resource, ← heq], hstatus⟩
  · rcases phase_of_withdrawn h hr with hp | hp <;> cases hp.symm.trans hquiescing
  · have hresource := (Topology.resource_setStatus hset resource).symm.trans hnode
    split_ifs at hresource with hid
    · obtain ⟨_, -, rfl⟩ := Option.map_eq_some_iff.mp hresource
      cases hstatus
    · exact ⟨node, hresource, hstatus⟩

theorem final_of_withdrawn (h : e.Withdrawn id) : Final id e where
  state := state_of_withdrawn h
  requests := by
    rintro now q hq rfl
    obtain ⟨pre, other, post, -, hq⟩ := mem_advance_evacuations hq
    obtain ⟨r, -, -, hr, hevacuating, -, -, -, hid, -⟩ := mem_turn_requests hq
    rw [← hid] at hr
    rcases phase_of_withdrawn (withdrawn_run h pre) hr with hp | hp <;> cases hp.symm.trans hevacuating
  closures := by
    intro now target generation
    exact (advance_invariant
      (P := fun e' : Engine => e'.Withdrawn id ∧
        (e'.fence.HeldBy target id generation → e.fence.HeldBy target id generation))
      (fun e' other ⟨hw, hback⟩ => ⟨withdrawn_fire e' (.turn other now) hw, fun hheld =>
        hback ((fence_turn hw other now).2 target generation hheld)⟩)
      ⟨h, fun hheld => hheld⟩).2
  fence := fun now => (fence_turn h id now).1 rfl
  resources := fun now resource hout => outOfService_turn h hout

/-- In every run whose restarts restore the current state: once a drain is cancelled or
restoring, it is in every later state cancelled, restoring, or blocked from
restoring, and so not drained; no pass issues a request for it or closes a fence in
its name, and no turn of it touches the fence or takes a resource out of service. -/
theorem cancelled_is_final {e : Engine} {id : DrainId} {r : DrainRecord}
    (hr : e.drain id = some r) (hs : r.state = .cancelled ∨ r.state = .restoring)
    (events : List Event) : Final id (run fire e events) := by
  have hphase := hs.imp_right (fun hs => DrainRecord.phase_of_state hs (by decide))
  exact final_of_withdrawn (withdrawn_run ⟨r, hr, hphase⟩ events)

/-- A drain is cancelled and asked to be restored, then the engine is restarted in the
middle of the restoration. -/
theorem cancelled_is_final_onePort :
    Final 1 (run fire (OnePort.cancelled [])
      [.call (.restoreDrain 1 1 "back" 1), .restart 1 1, .turn 1 1]) := by
  have hcancelled : ((OnePort.cancelled []).drain 1).any (fun r => r.state = .cancelled) = true := by
    decide +kernel
  obtain ⟨r, hr, hs⟩ := Option.any_eq_true _ _ |>.mp hcancelled
  exact cancelled_is_final hr (Or.inl (by simpa using hs)) _

end DrainFabric
