import DrainFabric.Engine.Frame
import DrainFabric.Engine.History

/-!
# The closure of admission

The instant admission closed is kept twice: as `closed_at` in the fence entry of the
target and as `admission_closed_at` in the record of the drain. This module says what
can write either of them.

* `apply_drain_frame` — an operation leaves the drains it does not name alone;
* `turn_closing` — the turn of a drain whose phase is `AdmissionClosed`;
* `Dated` — what the writes of one event make of `admission_closed_at`;
* `Exclusive` — of two drains of one target, one is cancelled or being restored;
* `DrainStep.entry_kept` — nobody but the drain itself touches the entry of a fence it
  holds;
* `Fate.beyond`, `DrainStep.closedAt` — which drains keep admission closed, and since when.
-/

namespace DrainFabric

open Lib

variable {ev : Event} {w w' : World} {now : TimePoint} {r' : DrainRecord} {f f' : AdmissionFence}
  {reason : String} {result : Result Generation}

namespace Engine

open World AdmissionFence

/-! ### Operations and the drains they do not name -/

section

variable {e : Engine} {id : DrainId} {r : DrainRecord}

/-- An operation leaves the drains it does not name alone. -/
theorem apply_drain_frame {c : Call} (hr : e.drain id = some r) (hc : c.drain ≠ some id) :
    (e.apply c).drain id = some r :=
  (@apply_strokes False e c (fun h => h.elim)).confined.others id r hr hc

/-! ### The turn of a drain that has closed admission -/

/-- The drain waits for the fence to settle, or moves on once it has. -/
theorem stepAdmissionClosed_cases (hr : e.drain r.id = some r) (hs : r.state = .admissionClosed)
    (now : TimePoint) :
    (e.stepAdmissionClosed r now).toWorld = e.toWorld ∨
      ∃ next detail, next ≠ .blocked ∧ next ≠ .admissionClosed ∧
        saturatingAdd r.admissionClosedAt e.policy.admissionFenceSettle ≤ now ∧
        (e.stepAdmissionClosed r now).toWorld = e.toWorld.withDrain (r.moved next now detail) := by
  have hmove : ∀ next detail inputs rejected, Forward .admissionClosed next →
      (e.applyTransition r next now detail .applied inputs [] rejected).1.toWorld = e.toWorld ∨
        (e.applyTransition r next now detail .applied inputs [] rejected).1.toWorld =
          e.toWorld.withDrain (r.moved next now detail) := by
    intro next detail inputs rejected hf
    rw [← hs] at hf
    rw [applyTransition_toWorld hr]
    rcases r.tried_cases hf.ne hf.legal now detail with ⟨-, h⟩ | ⟨-, h⟩
    · exact Or.inr (by rw [h])
    · exact Or.inl (by rw [h, withDrain_self hr])
  simp only [stepAdmissionClosed]
  split_ifs with hsettling hnone
  · exact Or.inl rfl
  · exact (hmove .quiescing _ _ _ .skip).imp id (fun hworld =>
      ⟨.quiescing, _, by decide, by decide, Int.not_lt.mp hsettling, hworld⟩)
  · exact (hmove .evacuating _ _ _ .evacuate).imp id (fun hworld =>
      ⟨.evacuating, _, by decide, by decide, Int.not_lt.mp hsettling, hworld⟩)

/-- What the switch of `step_drain` makes of the record. -/
theorem stepActive_closing (hr : e.drain r.id = some r) (hp : r.phase = .admissionClosed)
    (now : TimePoint) :
    ∃ r', (e.stepActive r now).1.drain r.id = some r' ∧
      (r' = r ∨ r'.state ≠ .blocked ∧ r'.admissionClosedAt = r.admissionClosedAt ∧
        saturatingAdd r.admissionClosedAt e.policy.admissionFenceSettle ≤ now) := by
  by_cases hb : r.state = .blocked
  · have hidle : e.stepActive r now = (e, []) := by simp only [stepActive, hb]
    exact ⟨r, by rw [hidle, hr], Or.inl rfl⟩
  · have hs : r.state = .admissionClosed := (DrainRecord.phase_of_not_blocked hb).symm.trans hp
    have hstep : e.stepActive r now = (e.stepAdmissionClosed r now, []) := by
      simp only [stepActive, hs]
    rw [hstep]
    rcases stepAdmissionClosed_cases hr hs now with hworld | ⟨next, detail, hne, hne', hat, hworld⟩
    · exact ⟨r, by rw [hworld, hr], Or.inl rfl⟩
    · refine ⟨r.moved next now detail, ?_, Or.inr ⟨hne, if_neg hne', hat⟩⟩
      rw [hworld, drain_withDrain]
      exact if_pos rfl

/-- A drain in `AdmissionClosed` is not blocked by its turn, and keeps its date. -/
theorem turn_admissionClosed (hr : e.drain id = some r) (hs : r.state = .admissionClosed)
    (now : TimePoint) :
    ∃ r', (e.turn id now).1.drain id = some r' ∧ r'.state ≠ .blocked ∧
      r'.admissionClosedAt = r.admissionClosedAt := by
  obtain rfl := id_of_drain hr
  have hturn : e.turn r.id now = e.stepActive r now := by
    simp [turn, hr, hs, isSettled, stepDrain]
  have hp : r.phase = .admissionClosed := DrainRecord.phase_of_state hs (by decide)
  rw [hturn]
  obtain ⟨r', hr', rfl | ⟨hb, hdate, -⟩⟩ := stepActive_closing hr hp now
  · exact ⟨r', hr', by rw [hs]; decide, rfl⟩
  · exact ⟨r', hr', hb, hdate⟩

/-- A drain whose turn takes it beyond `AdmissionClosed` found the fence settled. -/
theorem turn_closing (hr : e.drain id = some r) (hp : r.phase = .admissionClosed)
    (now : TimePoint) :
    ∃ r', (e.turn id now).1.drain id = some r' ∧ (r'.phase = .admissionClosed ∨
      saturatingAdd r'.admissionClosedAt e.policy.admissionFenceSettle ≤ now) := by
  obtain rfl := id_of_drain hr
  have hunsettled : isSettled r.state = false := by
    rw [Bool.eq_false_iff]
    intro hsettled
    rw [← phase_of_settled hsettled, hp] at hsettled
    cases hsettled
  have hstep : ∀ {e₁ : Engine} {r₁ : DrainRecord}, e₁.drain r₁.id = some r₁ →
      r₁.phase = .admissionClosed → e₁.policy = e.policy →
      ∃ r', (e₁.stepActive r₁ now).1.drain r₁.id = some r' ∧ (r'.phase = .admissionClosed ∨
        saturatingAdd r'.admissionClosedAt e.policy.admissionFenceSettle ≤ now) := by
    intro e₁ r₁ hr₁ hp₁ hpolicy
    obtain ⟨r', hr', rfl | ⟨-, hdate, hat⟩⟩ := stepActive_closing hr₁ hp₁ now
    · exact ⟨r', hr', Or.inl hp₁⟩
    · exact ⟨r', hr', Or.inr (by rw [hdate, ← hpolicy]; exact hat)⟩
  simp only [turn, hr, hunsettled, Bool.false_eq_true, if_false, stepDrain]
  split_ifs with hb
  · obtain ⟨r₁, evidence, held, hworld, hres⟩ := resumeBlocked_held e now hr hb
    have hr₁ : ∀ {e₁ : Engine}, e₁.toWorld = (e.toWorld.withEvidence evidence).withDrain r₁ →
        e₁.drain r₁.id = some r₁ := by
      intro e₁ heq
      rw [heq, drain_withDrain, if_pos rfl]
    rcases hresume : e.resumeBlocked r now with ⟨e₁, _ | resumed⟩
    · rw [hresume] at hworld
      exact ⟨r₁, held.hold.id ▸ hr₁ hworld, Or.inl (held.hold.phase.trans hp)⟩
    · rw [hresume] at hworld hres
      obtain rfl := hres resumed rfl
      rw [← held.hold.id]
      exact hstep (hr₁ hworld) (held.hold.phase.trans hp) (by rw [hworld]; rfl)
  · exact hstep hr hp rfl

/-- Only a restart blocks a drain in `AdmissionClosed`; nothing else redates it. -/
theorem fire_admissionClosed (hr : e.drain id = some r) (hs : r.state = .admissionClosed)
    (hev : ∀ prev now, ev ≠ .restart prev now) :
    ∃ r', (e.fire ev).drain id = some r' ∧ r'.state ≠ .blocked ∧
      r'.admissionClosedAt = r.admissionClosedAt := by
  have hsame : (e.fire ev).drain id = some r → ∃ r', (e.fire ev).drain id = some r' ∧
      r'.state ≠ .blocked ∧ r'.admissionClosedAt = r.admissionClosedAt :=
    fun h => ⟨r, h, by rw [hs]; decide, rfl⟩
  cases ev with
  | restart prev now => exact absurd rfl (hev prev now)
  | turn other now =>
    by_cases hother : id = other
    · subst hother
      exact turn_admissionClosed hr hs now
    · exact hsame (((turn_frame e other now).others id hother).trans hr)
  | call c =>
    by_cases hname : c.drain = some id
    swap
    · exact hsame (apply_drain_frame hr hname)
    obtain rfl := id_of_drain hr
    cases c with
    | cancelDrain other authority reason now =>
      obtain rfl := Option.some.inj hname
      show ∃ r', (e.cancelDrain r.id authority reason now).1.drain r.id = some r' ∧ _
      rcases cancelDrain_cases e r.id authority reason now with
        ⟨hworld, -⟩ | ⟨q, hq, -, -, hworld⟩
      · exact ⟨r, by rw [hworld, hr], by rw [hs]; decide, rfl⟩
      · obtain rfl := Option.some.inj (hr.symm.trans hq)
        refine ⟨r.moved .cancelled now (truncate reason), ?_, by simp [DrainRecord.moved],
          by simp [DrainRecord.moved]⟩
        rw [hworld, drain_withDrain]
        exact if_pos rfl
    | restoreDrain other authority reason now =>
      obtain rfl := Option.some.inj hname
      refine hsame ?_
      show (e.restoreDrain r.id authority reason now).1.drain r.id = some r
      simp only [restoreDrain, hr, hs]
      cases e.requireAuthority authority now <;> exact hr
    | resumeDrain other authority now =>
      obtain rfl := Option.some.inj hname
      refine hsame ?_
      show (e.resumeDrain r.id authority now).1.drain r.id = some r
      simp only [resumeDrain, hr, hs]
      cases e.requireAuthority authority now <;> exact hr
    | grantException other obligation extension authority now =>
      obtain rfl := Option.some.inj hname
      show ∃ r', (e.grantException r.id obligation extension authority now).1.drain r.id =
        some r' ∧ _
      rcases grantException_cases e r.id obligation extension authority now with
        ⟨hworld, -⟩ | ⟨q, hq, -, ⟨hworld, -⟩ | ⟨sequence, -, -, -, hworld⟩⟩
      · exact ⟨r, by rw [hworld.toWorld, hr], by rw [hs]; decide, rfl⟩
      · exact ⟨r, by rw [hworld.toWorld]; exact hr, by rw [hs]; decide, rfl⟩
      · obtain rfl := Option.some.inj (hr.symm.trans hq)
        refine ⟨r.resetEvacuationAttempts, ?_, ?_, rfl⟩
        · rw [hworld.toWorld, drain_withDrain]
          exact if_pos rfl
        · show r.state ≠ .blocked
          rw [hs]
          decide
    | _ => cases hname

end

end Engine

/-! ### The date in the record -/

/-- Admission is still to be closed. -/
def isEarly (state : DrainState) : Bool := state matches .requested | .validating

/-- The drain will not close admission any more, and does not keep it closed. -/
def isGone (state : DrainState) : Bool := state matches .cancelled | .restoring | .failed

/-- Admission was closed and the fence has settled. -/
def isLate (state : DrainState) : Bool :=
  isGone state || (state matches .evacuating | .quiescing | .verifying | .drained)

namespace World

/-- Where a transition leads, by phases: nowhere for a drain that is blocked or resumed,
along the transition table otherwise, and a blocked drain may also be given up. -/
theorem phase_moved_cases {r : DrainRecord} {next : DrainState} (now : TimePoint)
    (detail : String) (hne : next ≠ r.state) (hlegal : isLegalDrainTransition r.state next = true)
    (hresume : r.state = .blocked → next = r.phase ∨ isSettled next = true) :
    ((r.moved next now detail).phase = r.phase ∧ (next = .blocked ∨ next = r.phase)) ∨
      ((r.moved next now detail).phase = next ∧ next ≠ .blocked ∧
        (isLegalDrainTransition r.phase next = true ∨ isGone next = true)) := by
  by_cases hnext : next = .blocked
  · subst hnext
    exact Or.inl ⟨DrainRecord.phase_moved_blocked (Ne.symm hne) now detail, Or.inl rfl⟩
  · have hphase : (r.moved next now detail).phase = next := DrainRecord.phase_moved hnext now detail
    by_cases hb : r.state = .blocked
    · rcases hresume hb with rfl | hsettled
      · exact Or.inl ⟨hphase, Or.inr rfl⟩
      · refine Or.inr ⟨hphase, hnext, Or.inr ?_⟩
        rw [hb] at hlegal
        revert hsettled hlegal
        cases next <;> decide
    · exact Or.inr ⟨hphase, hnext, Or.inl (by rwa [DrainRecord.phase_of_not_blocked hb])⟩

/-- What writes made at `now` leave of the date of a record: a drain that has not closed
admission is dated when it does, and one that has moved on is not dated again. -/
structure Dated (now : TimePoint) (r r' : DrainRecord) : Prop where
  kept : r'.admissionClosedAt = r.admissionClosedAt ∨ r'.admissionClosedAt = now
  late : isLate r.phase = true → isLate r'.phase = true ∧
    r'.admissionClosedAt = r.admissionClosedAt
  early : isEarly r.phase = true → isEarly r'.phase = true ∨ isGone r'.phase = true ∨
    r'.admissionClosedAt = now

/-- A drain that closes admission is dated. -/
theorem Dated.of_closing {now : TimePoint} {r r' : DrainRecord} (h : Dated now r r')
    (hv : r.phase = .validating) (hp : isFenceHoldingState r'.phase = true) :
    r'.admissionClosedAt = now := by
  refine (or_assoc.mpr (h.early (by rw [hv]; rfl))).resolve_left ?_
  revert hp
  cases r'.phase <;> decide

theorem Dated.refl (now : TimePoint) (r : DrainRecord) : Dated now r r :=
  ⟨Or.inl rfl, fun h => ⟨h, rfl⟩, Or.inl⟩

theorem Dated.moved {now : TimePoint} {r₀ r : DrainRecord} (h : Dated now r₀ r)
    {next : DrainState} (detail : String) (hne : next ≠ r.state)
    (hlegal : isLegalDrainTransition r.state next = true)
    (hresume : r.state = .blocked → next = r.phase ∨ isSettled next = true) :
    Dated now r₀ (r.moved next now detail) := by
  have hdate : (r.moved next now detail).admissionClosedAt = now ∨
      next ≠ .admissionClosed ∧
        (r.moved next now detail).admissionClosedAt = r.admissionClosedAt := by
    by_cases hnext : next = .admissionClosed
    · exact Or.inl (if_pos hnext)
    · exact Or.inr ⟨hnext, if_neg hnext⟩
  have hcases := phase_moved_cases now detail hne hlegal hresume
  refine ⟨?_, fun hlate => ?_, fun hearly => ?_⟩
  · rcases hdate with hnow | ⟨-, hkept⟩
    · exact Or.inr hnow
    · rw [hkept]
      exact h.kept
  · obtain ⟨hlate, hsame⟩ := h.late hlate
    -- From a late phase nothing leads back to `AdmissionClosed`.
    have hnext : next ≠ .admissionClosed ∧ isLate (r.moved next now detail).phase = true := by
      rcases hcases with ⟨hphase, hnext⟩ | ⟨hphase, hnext, hlegal⟩
      · rw [hphase]
        refine ⟨?_, hlate⟩
        rintro rfl
        rcases hnext with hnext | hnext
        · cases hnext
        · rw [← hnext] at hlate
          cases hlate
      · rw [hphase]
        revert hlate hnext hlegal
        cases r.phase <;> cases next <;> decide
    exact ⟨hnext.2, (if_neg hnext.1).trans hsame⟩
  · rcases hdate with hnow | ⟨hnext, hkept⟩
    · exact Or.inr (Or.inr hnow)
    rw [hkept]
    rcases h.early hearly with hstill | hgone | hnow
    · rcases hcases with ⟨hphase, -⟩ | ⟨hphase, hblocked, hlegal⟩
      · rw [hphase]
        exact Or.inl hstill
      · rw [hphase, ← or_assoc]
        refine Or.inl ?_
        revert hstill hnext hblocked hlegal
        cases r.phase <;> cases next <;> decide
    · refine Or.inr (Or.inl ?_)
      rcases hcases with ⟨hphase, -⟩ | ⟨hphase, hblocked, hlegal⟩
      · rwa [hphase]
      · rw [hphase]
        revert hgone hblocked hlegal
        cases r.phase <;> cases next <;> decide
    · exact Or.inr (Or.inr hnow)

theorem Dated.edit {r₀ r : DrainRecord} (h : Dated now r₀ r) (hedit : Edit w now r r') :
    Dated now r₀ r' := by
  cases hedit with
  | moves detail hne hlegal _ hresume => exact h.moved detail hne hlegal hresume
  | _ => exact ⟨h.kept, h.late, h.early⟩

end World

namespace Engine

open World

theorem fire_dated {e : Engine} (hev : ∀ prev now, ev ≠ .restart prev now) {id : DrainId}
    {r : DrainRecord} (hr : e.drain id = some r) :
    ∃ r', (e.fire ev).drain id = some r' ∧ Dated ev.time r r' :=
  fire_record (Dated.refl ev.time) (fun _ _ _ _ hedit h => h.edit hedit)
    (fun prev now h => absurd h (hev prev now)) hr

end Engine

/-! ### Drains of one target -/

namespace World

open AdmissionFence Engine

/-- A drain that is gone stays gone. -/
theorem Fate.gone {id : DrainId} {r : DrainRecord} (h : Fate w id r' w' ev)
    (hr : w.drain id = some r) (hgone : isGone r.phase = true) : isGone r'.phase = true := by
  refine h.stays_in (fun source next hpath => ?_) rfl rfl rfl hr hgone
  cases hpath with
  | forward hf => cases hf <;> rfl
  | remove => rfl
  | complete => rfl

/-- Of two drains of one target, one is cancelled or being restored. -/
def Exclusive (w : World) : Prop :=
  ∀ id r id' r', w.drain id = some r → w.drain id' = some r' → r.target = r'.target → id ≠ id' →
    isGone r.phase = true ∨ isGone r'.phase = true

theorem exclusive_init (policy : DrainPolicy) : Exclusive (Engine.init policy).toWorld :=
  fun _ _ _ _ h => by simp at h

theorem exclusive_step (inv : Exclusive w) (h : DrainStep w ev w') : Exclusive w' := by
  refine h.apart (fun q hq => ?_) (fun hq hq' => (h.fate hq').gone hq) inv
  rw [DrainRecord.phase_of_state hq.1 (by decide)]
  rfl

end World

/-! ### The date in the fence -/

namespace AdmissionFence

/-- A closure is dated when it is made. -/
theorem close_closedAt {target : DrainTarget} {drain : DrainId} {at_ : TimePoint}
    {next : Generation} (h : f.close target drain at_ reason = (f', .ok next)) :
    ∃ entry, f'.entry target = some entry ∧ entry.closedAt = at_ := by
  unfold close at h
  split_ifs at h with hzero
  · simp [fail] at h
  · cases hnext : incrementChecked ((f.entry target).getD {}).generation with
    | none => simp [hnext, fail] at h
    | some n =>
      simp only [hnext] at h
      split_ifs at h with hfull
      · simp [fail] at h
      · obtain ⟨rfl, -⟩ := Prod.mk.inj h
        exact ⟨_, OrdMap.get?_set_self _ _ _, rfl⟩

end AdmissionFence

namespace Engine

open World AdmissionFence

/-- The fence of every other target stays as it was. -/
theorem entry_reopenFence {r : DrainRecord} (h : reopenFence f r reason now = (f', result))
    {target : DrainTarget} (hne : r.target ≠ target) : f'.entry target = f.entry target := by
  have hother := Ne.symm hne
  have hreopen : ∀ {g g' : AdmissionFence} {next : Generation},
      g.reopen r.target r.id now (truncate reason) = .ok (g', next) →
      g'.entry target = g.entry target := by
    intro g g' next hg
    obtain ⟨_, _, -, -, -, -, -, -, -, hkept⟩ := reopen_ok hg
    exact hkept target hother
  rcases reopenFence_cases h with ⟨rfl, -⟩ | ⟨next, -, hok, -⟩ | ⟨-, mid, closed, hclose, hend⟩
  · rfl
  · exact hreopen hok
  · have hmid : mid.entry target = f.entry target := by
      cases closed with
      | ok next => exact (close_ok hclose).2.2.2 target hother
      | error err =>
        rcases close_error hclose with rfl | ⟨-, hkept⟩
        · rfl
        · exact hkept target hother
    rcases hend with ⟨rfl, -⟩ | ⟨-, next, -, -, hok⟩
    · exact hmid
    · exact (hreopen hok).trans hmid

/-- A fence that a drain holds is reopened for nobody else. -/
theorem reopenFence_held {r : DrainRecord} {id : DrainId} {generation : Generation}
    (h : reopenFence f r reason now = (f', result)) (hheld : f.HeldBy r.target id generation) :
    f' = f ∨ (r.id = id ∧ ∃ next, result = .ok next) := by
  obtain ⟨entry, hentry, hclosed, hdrain, -⟩ := hheld
  rcases reopenFence_cases h with ⟨rfl, -⟩ | ⟨next, hok, -, hown⟩ | ⟨hopen, -⟩
  · exact Or.inl rfl
  · exact Or.inr ⟨(hown entry hentry hclosed).symm.trans hdrain, next, hok⟩
  · have : f.isClosed r.target = true := isClosed_iff.mpr ⟨entry, hentry, hclosed⟩
    rw [hopen] at this
    cases this

end Engine

namespace World

open AdmissionFence Engine

/-- The entry of a fence that a drain holds stays as it is, unless the drain itself is
restored. -/
theorem DrainStep.entry_kept (h : DrainStep w ev w') (hexclusive : Exclusive w) {id : DrainId}
    {r : DrainRecord} (hr : w.drain id = some r) {generation : Generation}
    (hheld : w.fence.HeldBy r.target id generation) (hgone : isGone r.phase = false)
    (hclosed : r.phase ≠ .validating) (hev : ∀ prev now, ev ≠ .restart prev now) :
    w'.fence.entry r.target = w.fence.entry r.target ∨
      isSettled r.state = true ∧ ∃ authority reason now,
        ev = .call (.restoreDrain id authority reason now) ∧
        ((∀ r', w'.drain id = some r' → r'.state = .restoring) ∨ r.revision = u64Max) := by
  -- A drain that is validating closes the fence of another target.
  have hother : ∀ {q : DrainRecord}, w.drain q.id = some q → q.phase = .validating →
      r.target ≠ q.target := by
    intro q hq hphase htarget
    by_cases hid : id = q.id
    · rw [← hid, hr] at hq
      obtain rfl := Option.some.inj hq
      exact hclosed hphase
    · rcases hexclusive id r q.id q hr hq htarget hid with hr' | hq'
      · rw [hgone] at hr'
        cases hr'
      · rw [hphase] at hq'
        cases hq'
  cases h with
  | stays _ _ hfence => exact Or.inl (by rw [hfence])
  | moves _ _ _ _ _ hfence => exact Or.inl (by rw [hfence])
  | closes hrewrites hphase _ _ hclose =>
    exact Or.inl ((close_ok hclose).2.2.2 _ (hother hrewrites.before hphase))
  | closeFails hrewrites _ hphase _ hclose =>
    rcases close_error hclose with heq | ⟨-, hothers⟩
    · exact Or.inl (by rw [heq])
    · exact Or.inl (hothers _ (hother hrewrites.before hphase))
  | settles _ _ _ _ _ hfence => exact Or.inl (by rw [hfence])
  | cancels _ _ _ _ _ _ hfence => exact Or.inl (by rw [hfence])
  | @reopens authority reason now q q' _ hrewrites hsettled _ hreopen hs =>
    by_cases htarget : q.target = r.target
    swap
    · exact Or.inl (entry_reopenFence hreopen htarget)
    rcases reopenFence_held hreopen (htarget ▸ hheld) with heq | ⟨rfl, -⟩
    · exact Or.inl (by rw [heq])
    · obtain rfl := Option.some.inj (hr.symm.trans hrewrites.before)
      refine Or.inr ⟨hsettled, authority, reason, now, rfl, Or.inl (fun r' hr' => ?_)⟩
      rw [hrewrites.after, if_pos rfl] at hr'
      rwa [← Option.some.inj hr']
  | @reopenFails authority reason now q _ result hq hsettled _ hreopen hfailed =>
    by_cases htarget : q.target = r.target
    swap
    · exact Or.inl (entry_reopenFence hreopen htarget)
    rcases reopenFence_held hreopen (htarget ▸ hheld) with heq | ⟨rfl, next, hok⟩
    · exact Or.inl (by rw [heq])
    · obtain rfl := Option.some.inj (hr.symm.trans hq)
      rcases hfailed with ⟨err, herr⟩ | hrevision
      · cases hok.symm.trans herr
      · exact Or.inr ⟨hsettled, authority, reason, now, rfl, Or.inr hrevision⟩
  | spawns _ hspawned => exact Or.inl (by rw [hspawned.fence])
  | recovers => exact absurd rfl (hev _ _)

end World

/-! ### Which drains keep admission closed -/

open World Engine AdmissionFence

/-- The drain keeps admission closed: it holds its fence or is drained. -/
def DrainRecord.Beyond (r : DrainRecord) : Prop :=
  isFenceHoldingState r.phase = true ∨ r.state = .drained

theorem DrainRecord.Beyond.phase {r : DrainRecord} (h : r.Beyond) :
    r.phase = .admissionClosed ∨ isLate r.phase = true ∧ isGone r.phase = false := by
  rcases h with h | h
  · revert h
    cases r.phase <;> decide
  · rw [DrainRecord.phase_of_state h (by decide)]
    decide

theorem DrainRecord.not_beyond_of_state {r : DrainRecord} {state : DrainState}
    (hs : r.state = state) (hne : state ≠ .blocked ∧ state ≠ .drained)
    (hholds : isFenceHoldingState state = false) : ¬ r.Beyond := by
  rintro (h | h)
  · rw [DrainRecord.phase_of_state hs hne.1, hholds] at h
    cases h
  · exact hne.2 (hs.symm.trans h)

theorem DrainRecord.not_beyond_of_validating {r : DrainRecord} (hp : r.phase = .validating) :
    ¬ r.Beyond := by
  intro h
  have hphase := h.phase
  rw [hp] at hphase
  revert hphase
  decide

/-- A drain keeps admission closed since before the event, or closed it just now. -/
theorem World.Fate.beyond {id : DrainId} (h : Fate w id r' w' ev) (hb : r'.Beyond) :
    ∃ r, w.drain id = some r ∧
      (r.Beyond ∨ r.phase = .validating ∧ r'.state = .admissionClosed) := by
  cases h with
  | born _ _ _ hs => exact absurd hb (DrainRecord.not_beyond_of_state hs (by decide) rfl)
  | keeps hr kept =>
    rcases hb with hb | hb
    · exact ⟨_, hr, Or.inl (Or.inl (kept.phase ▸ hb))⟩
    · exact ⟨_, hr, Or.inl (Or.inr (kept.drained hb))⟩
  | @moves _ r hr _ hpath hs =>
    refine ⟨r, hr, Or.inl (Or.inl ?_)⟩
    rcases hb with hb | hb
    · exact hpath.facts.2.2.2.2 hb
    · rw [← hs, hb] at hpath
      generalize r.phase = source at hpath
      cases hpath with
      | forward hf => cases hf
      | complete => rfl
  | closes hr _ hphase _ _ _ hcase =>
    rcases hcase with hs | ⟨hp, -⟩
    · exact ⟨_, hr, Or.inr ⟨hphase, hs⟩⟩
    · exact absurd hb (DrainRecord.not_beyond_of_validating hp)
  | retries _ hold hphase =>
    exact absurd hb (DrainRecord.not_beyond_of_validating (hold.phase.trans hphase))
  | settles _ _ _ hs | cancels _ _ _ _ hs | reopens _ _ _ _ hs =>
    exact absurd hb (DrainRecord.not_beyond_of_state hs (by decide) rfl)
  | refused hr => exact ⟨r', hr, Or.inl hb⟩

/-- A drain that leaves `Validating` for `AdmissionClosed` dates its fence. -/
theorem World.DrainStep.closedAt (h : DrainStep w ev w') {id : DrainId} {r : DrainRecord}
    (hr : w.drain id = some r) (hp : r.phase = .validating) (hr' : w'.drain id = some r')
    (hs' : r'.state = .admissionClosed) :
    ∃ entry, w'.fence.entry r.target = some entry ∧ entry.closedAt = ev.time := by
  have hphase' : r'.phase = .admissionClosed := DrainRecord.phase_of_state hs' (by decide)
  have hchanged : r' ≠ r := by
    rintro rfl
    cases hp.symm.trans hphase'
  -- Only the drain that acts can have moved.
  have hacting : ∀ {q q' : DrainRecord}, Rewrites w q q' w' → q.id = id ∧ q = r ∧ q' = r' := by
    intro q q' hrewrites
    rcases hrewrites.cases hr' with ⟨hid, heq⟩ | ⟨-, hsame⟩
    · subst hid
      exact ⟨rfl, Option.some.inj (hrewrites.before.symm.trans hr), heq.symm⟩
    · exact absurd (Option.some.inj (hsame.symm.trans hr)) hchanged
  cases h with
  | stays _ hkept =>
    obtain ⟨q, hold, hq⟩ := hkept id r hr
    obtain rfl := Option.some.inj (hq.symm.trans hr')
    cases (hold.phase.trans hp).symm.trans hphase'
  | moves hrewrites hpath =>
    obtain ⟨-, rfl, rfl⟩ := hacting hrewrites
    rw [hp] at hpath
    generalize DrainRecord.phase _ = next at hpath
    cases hpath with
    | forward hf => cases hf
  | closes hrewrites _ _ _ hclose =>
    obtain ⟨rfl, rfl, -⟩ := hacting hrewrites
    exact close_closedAt hclose
  | closeFails hrewrites hold =>
    obtain ⟨-, rfl, rfl⟩ := hacting hrewrites
    cases (hold.phase.trans hp).symm.trans hphase'
  | settles hrewrites hphase =>
    obtain ⟨-, rfl, -⟩ := hacting hrewrites
    cases hp.symm.trans hphase
  | cancels hrewrites _ _ hs =>
    obtain ⟨-, -, rfl⟩ := hacting hrewrites
    cases hs.symm.trans hs'
  | reopens hrewrites _ _ _ hs =>
    obtain ⟨-, -, rfl⟩ := hacting hrewrites
    cases hs.symm.trans hs'
  | reopenFails _ _ _ _ _ hdrains =>
    rw [World.drain, hdrains] at hr'
    exact absurd (Option.some.inj (hr'.symm.trans hr)) hchanged
  | spawns _ hspawned =>
    exact absurd (Option.some.inj (hr'.symm.trans (hspawned.kept id r hr))) hchanged
  | recovers hrecovered =>
    obtain ⟨q, hrestarted, hq⟩ := hrecovered.drain id r hr
    obtain rfl := Option.some.inj (hq.symm.trans hr')
    cases (hrestarted.phase.trans hp).symm.trans hphase'

namespace Engine

theorem admissionClosedAt_recovered (now : TimePoint) (r : DrainRecord) :
    (recoveredRecord now r.reloaded).admissionClosedAt = persistedCount r.admissionClosedAt := by
  unfold recoveredRecord
  split_ifs <;> rfl

theorem exclusive_fire (e : Engine) (ev : Event) (h : Exclusive e.toWorld) :
    Exclusive (e.fire ev).toWorld :=
  exclusive_step h (fire_drainStep e ev)

end Engine

end DrainFabric
