import DrainFabric.Engine.Closing
import DrainFabric.Properties.Ownership

/-!
# One admission boundary

Release and removal evidence is judged against `admission_closed_at` of the record, and
admission against the fence. Both are written when admission is closed. The record is
written again when a drain is resumed to `AdmissionClosed`, the fence is not; and a
drain is blocked in that state by a restart only.

* `Bounded` — the two dates agree, and no drain waits to be resumed to `AdmissionClosed`;
* `bounded_recovered`, `bounded_fire` — the step lemmas;
* `one_admission_boundary` — every reachable state, when no restart finds a drain in
  `AdmissionClosed`;
* `boundary_moved_by_resumption` — what happens otherwise.
-/

namespace DrainFabric

open Lib World Engine AdmissionFence

variable {e : Engine} {ev : Event} {id : DrainId} {r' : DrainRecord}

/-- The record and the fence agree on when admission closed. -/
structure World.Bounded (w : World) : Prop where
  unparked : ∀ id r, w.drain id = some r → r.state = .blocked → r.phase ≠ .admissionClosed
  dated : ∀ id r, w.drain id = some r → r.Beyond →
    ∃ entry, w.fence.entry r.target = some entry ∧ entry.closedAt = r.admissionClosedAt

def Event.isRestart : Event → Bool
  | .restart _ _ => true
  | _ => false

/-- The drain an event asks to restore. -/
def Event.restores : Event → Option DrainId
  | .call (.restoreDrain id _ _ _) => some id
  | _ => none

/-- No restart finds a drain in `AdmissionClosed`, and no drain is restored with an
exhausted revision. -/
def KeepsBoundary (e : Engine) (ev : Event) : Prop :=
  (ev.isRestart = true → ∀ r ∈ e.drains.toList, r.state ≠ .admissionClosed) ∧
    ∀ id ∈ ev.restores, ∀ r ∈ e.drain id, r.revision ≠ u64Max

instance (e : Engine) (ev : Event) : Decidable (KeepsBoundary e ev) :=
  inferInstanceAs (Decidable ((ev.isRestart = true →
    ∀ r ∈ e.drains.toList, r.state ≠ .admissionClosed) ∧
      ∀ id ∈ ev.restores, ∀ r ∈ e.drain id, r.revision ≠ u64Max))

/-! ### Restarts -/

/-- Both dates are written and read the same way. -/
theorem bounded_recovered {recovered : Engine} {policy : DrainPolicy} {prev : IncarnationId}
    {now : TimePoint} (h : decodeSnapshot policy e.snapshot prev now = .ok recovered)
    (inv : Bounded e.toWorld) (hrestart : ∀ r ∈ e.drains.toList, r.state ≠ .admissionClosed) :
    Bounded recovered.toWorld := by
  have hworld : Recovered e.toWorld recovered.toWorld := decodeSnapshot_recovered h
  refine ⟨fun id r' hr' _ hphase => ?_, fun id r' hr' hbeyond => ?_⟩
  · obtain ⟨r, hr, hrestarted⟩ := hworld.of_drain hr'
    rw [hrestarted.phase] at hphase
    by_cases hb : r.state = .blocked
    · exact inv.unparked id r hr hb hphase
    · exact hrestart r (Table.mem_of_find? hr)
        ((DrainRecord.phase_of_not_blocked hb).symm.trans hphase)
  · obtain ⟨r, hr, -, rfl⟩ := (decodeSnapshot_eq_ok.mp h).of_drain hr'
    have kept := Kept.of_restarted (restarted_recoveredRecord now r)
    obtain ⟨entry, hentry, hdate⟩ := inv.dated id r hr
      (hbeyond.imp (fun hp => kept.phase ▸ hp) kept.drained)
    refine ⟨entry.persisted, ?_, ?_⟩
    · rw [kept.target, entry_of_loaded hworld.fence, hentry]
      rfl
    · rw [admissionClosedAt_recovered, ← hdate]
      rfl

/-! ### Every other event -/

theorem unparked_fire (inv : Bounded e.toWorld) (hev : ∀ prev now, ev ≠ .restart prev now)
    (hr' : (e.fire ev).drain id = some r') (hb : r'.state = .blocked) :
    r'.phase ≠ .admissionClosed := by
  intro hphase
  cases (fire_drainStep e ev).fate hr' with
  | born _ _ _ hs => cases hs.symm.trans hb
  | @keeps _ r hr kept =>
    have hp : r.phase = .admissionClosed := kept.phase.symm.trans hphase
    by_cases hrb : r.state = .blocked
    · exact inv.unparked id r hr hrb hp
    · have hs : r.state = .admissionClosed := (DrainRecord.phase_of_not_blocked hrb).symm.trans hp
      obtain ⟨q, hq, hnot, -⟩ := fire_admissionClosed hr hs hev
      obtain rfl := Option.some.inj (hq.symm.trans hr')
      exact hnot hb
  | moves _ _ _ hs => cases hb.symm.trans (hs.trans hphase)
  | closes _ _ _ _ _ _ hcase =>
    rcases hcase with hs | ⟨hp, -⟩
    · cases hs.symm.trans hb
    · cases hp.symm.trans hphase
  | retries _ hold hp => cases (hold.phase.trans hp).symm.trans hphase
  | settles _ _ _ hs => cases hs.symm.trans hb
  | cancels _ _ _ _ hs => cases hs.symm.trans hb
  | reopens _ _ _ _ hs => cases hs.symm.trans hb
  | refused _ hsettled =>
    rw [hb] at hsettled
    cases hsettled

/-- The date in the record of a drain that keeps admission closed. -/
theorem admissionClosedAt_fire (inv : Bounded e.toWorld)
    (hev : ∀ prev now, ev ≠ .restart prev now) {r : DrainRecord} (hr : e.drain id = some r)
    (hb : r.Beyond) (hr' : (e.fire ev).drain id = some r') :
    r'.admissionClosedAt = r.admissionClosedAt := by
  rcases hb.phase with hp | ⟨hlate, -⟩
  · have hs : r.state = .admissionClosed := by
      by_contra hne
      refine hne ((DrainRecord.phase_of_not_blocked (fun hblocked => ?_)).symm.trans hp)
      exact inv.unparked id r hr hblocked hp
    obtain ⟨q, hq, -, hdate⟩ := fire_admissionClosed hr hs hev
    rwa [← Option.some.inj (hq.symm.trans hr')]
  · obtain ⟨q, hq, hdated⟩ := fire_dated hev hr
    rw [← Option.some.inj (hq.symm.trans hr')]
    exact (hdated.late hlate).2

/-- The entry of its fence. -/
theorem entry_fire (hfenced : Fenced e.toWorld) (hdrained : DrainedHeld e.toWorld)
    (hexclusive : Exclusive e.toWorld) (hkeeps : KeepsBoundary e ev)
    (hev : ∀ prev now, ev ≠ .restart prev now) {r : DrainRecord} (hr : e.drain id = some r)
    (hb : r.Beyond) (hr' : (e.fire ev).drain id = some r') (hb' : r'.Beyond) :
    (e.fire ev).fence.entry r.target = e.fence.entry r.target := by
  have hheld : e.fence.HeldBy r.target id r.generation :=
    hb.elim (hfenced.held id r hr) (hdrained id r hr)
  have hphases : isGone r.phase = false ∧ r.phase ≠ .validating := by
    rcases hb.phase with hp | ⟨hlate, hgone⟩
    · rw [hp]
      decide
    · refine ⟨hgone, ?_⟩
      intro hp
      rw [hp] at hlate
      cases hlate
  rcases (fire_drainStep e ev).entry_kept hexclusive hr hheld hphases.1 hphases.2 hev with
    hsame | ⟨-, authority, reason, now, rfl, hrestoring | hrevision⟩
  · exact hsame
  · exact absurd hb' (DrainRecord.not_beyond_of_state (hrestoring r' hr') (by decide) rfl)
  · exact absurd hrevision (hkeeps.2 id rfl r hr)

theorem bounded_fire (hfenced : Fenced e.toWorld) (hdrained : DrainedHeld e.toWorld)
    (hexclusive : Exclusive e.toWorld) (inv : Bounded e.toWorld) (hkeeps : KeepsBoundary e ev) :
    Bounded (e.fire ev).toWorld := by
  by_cases hrestart : ∃ prev now, ev = .restart prev now
  · obtain ⟨prev, now, rfl⟩ := hrestart
    exact restart_rule inv (fun _ hdecode => bounded_recovered hdecode inv (hkeeps.1 rfl))
  have hev : ∀ prev now, ev ≠ .restart prev now :=
    fun prev now h => hrestart ⟨prev, now, h⟩
  refine ⟨fun id r' hr' hb => unparked_fire inv hev hr' hb, fun id r' hr' hb' => ?_⟩
  have hfate := (fire_drainStep e ev).fate hr'
  obtain ⟨r, hr, hb | ⟨hp, hs'⟩⟩ := hfate.beyond hb'
  · obtain ⟨entry, hentry, hdate⟩ := inv.dated id r hr hb
    refine ⟨entry, ?_, ?_⟩
    · rw [hfate.target hr, entry_fire hfenced hdrained hexclusive hkeeps hev hr hb hr' hb', hentry]
    · rw [hdate, admissionClosedAt_fire inv hev hr hb hr']
  · obtain ⟨entry, hentry, hdate⟩ := (fire_drainStep e ev).closedAt hr hp hr' hs'
    refine ⟨entry, (hfate.target hr).symm ▸ hentry, hdate.trans ?_⟩
    obtain ⟨q, hq, hdated⟩ := fire_dated hev hr
    obtain rfl := Option.some.inj (hq.symm.trans hr')
    exact (hdated.of_closing hp (by rw [DrainRecord.phase_of_state hs' (by decide)]; rfl)).symm

/-! ### The boundary -/

/-- In every state that is reachable without a restart while a drain is in
`AdmissionClosed`, and without restoring a drain of exhausted revision: the date in the
record of a drain that holds its fence or is drained is the date in the fence. -/
theorem one_admission_boundary {e : Engine} (he : Reachable KeepsBoundary e) {id : DrainId}
    {r : DrainRecord} (hr : e.drain id = some r)
    (hcase : holdsFence r = true ∨ r.state = .drained) :
    ∃ entry, e.fence.entry r.target = some entry ∧ entry.closedAt = r.admissionClosedAt := by
  have hall := he.invariant (P := fun e : Engine => Fenced e.toWorld ∧ DrainedHeld e.toWorld ∧
      Exclusive e.toWorld ∧ Bounded e.toWorld)
    (fun policy => ⟨fenced_init policy, fun _ _ h => by simp at h, exclusive_init policy,
      fun _ _ h => by simp at h, fun _ _ h => by simp at h⟩)
    (fun e ev ⟨hfenced, hdrained, hexclusive, hbounded⟩ hev =>
      ⟨fenced_fire e ev hfenced,
        drainedHeld_fire hfenced hdrained
          (fun id _ _ _ r heq hr _ => hev.2 id (heq ▸ rfl) r hr),
        exclusive_fire e ev hexclusive, bounded_fire hfenced hdrained hexclusive hbounded hev⟩)
  rw [holdsFence_eq] at hcase
  exact hall.2.2.2.dated id r hr hcase

namespace OnePort

/-- A restart finds the drain of the port in `Quiescing`; the passes after it resume and
complete the drain. -/
def interrupted : List Operation :=
  (setup 1).map .call ++
    [.advance 1, .advance 1, .advance 2, .restart 1 3, .advance 4, .advance 5, .advance 6]

/-- A restart finds the drain of the port in `AdmissionClosed`; a pass resumes it. -/
def interruptedClosing : List Operation :=
  (setup 1).map .call ++ [.advance 1, .advance 1, .restart 1 2, .advance 5]

end OnePort

theorem one_admission_boundary_interrupted :
    ∃ r entry, (run perform (Engine.init {}) OnePort.interrupted).drain 1 = some r ∧
      r.state = .drained ∧
      (run perform (Engine.init {}) OnePort.interrupted).fence.entry r.target = some entry ∧
      entry.closedAt = r.admissionClosedAt := by
  have hreach : Reachable KeepsBoundary (run perform (Engine.init {}) OnePort.interrupted) :=
    reachable_run (.init {}) (by decide +kernel)
  have hdrained : ((run perform (Engine.init {}) OnePort.interrupted).drain 1).any
      (fun r => r.state = .drained) = true := by
    decide +kernel
  obtain ⟨r, hr, hs⟩ := Option.any_eq_true _ _ |>.mp hdrained
  rw [decide_eq_true_iff] at hs
  obtain ⟨entry, hentry⟩ := one_admission_boundary hreach hr (Or.inr hs)
  exact ⟨r, entry, hr, hs, hentry⟩

/-- Admission closed at time 1. The pass at time 5 resumes the drain and dates its record
again, and the drain goes on with the later date. -/
theorem boundary_moved_by_resumption :
    Reachable (fun _ _ => True) (run perform (Engine.init {}) OnePort.interruptedClosing) ∧
      ((run perform (Engine.init {}) OnePort.interruptedClosing).drain 1).map
        (fun r => (r.target, r.state, r.admissionClosedAt)) =
          some (OnePort.port, .quiescing, 5) ∧
      ((run perform (Engine.init {}) OnePort.interruptedClosing).fence.entry OnePort.port).map
        (fun entry => (entry.closed, entry.drain, entry.closedAt)) = some (true, 1, 1) :=
  ⟨reachable_run (.init {}) (by decide +kernel), by decide +kernel, by decide +kernel⟩

end DrainFabric
