import DrainFabric.Engine.Attempts

/-!
# The evacuation budget

A drain may ask for the evacuation of its obligations `max_evacuation_attempts` times.
Every exception it is granted lets it start counting again, and it is granted at most
`max_exception_extensions` of them. So there is a potential that no event lowers: the
attempts counted so far and, for every exception, the attempts it may have wiped out.

No request is issued before the fence has settled. The turn that leaves
`AdmissionClosed` checks this against the date in the record, which is never before the
date in the fence.

* `Within` — counter and exceptions are within the policy;
* `spent`, `spent_perform` — the potential and what one operation does to it;
* `Settling`, `settling_fire` — what the dates say about a fence that has settled.
-/

namespace DrainFabric

open Lib World Engine AdmissionFence

variable {w w' : World} {now clock : TimePoint} {r : DrainRecord} {ev : Event} {e : Engine}
  {id : DrainId} {operations : List Operation}

/-! ### Counter and exceptions -/

namespace World

/-- The policy in force is `fixed`, and the counters and exceptions of all drains are
within it. -/
structure Within (fixed : DrainPolicy) (w : World) : Prop where
  policy : w.policy = fixed
  attempts : ∀ id r, w.drain id = some r → r.evacuationRequests ≤ fixed.maxEvacuationAttempts
  exceptions : ∀ id, (w.grants id).length ≤ fixed.maxExceptionExtensions
  assigned : w.Assigned

theorem within_init (policy : DrainPolicy) : Within policy (Engine.init policy).toWorld :=
  ⟨rfl, fun _ _ h => by simp at h, fun _ => Nat.zero_le _, fun _ _ h => by cases h⟩

theorem attempts_edit {r' : DrainRecord} (h : Edit w now r r')
    (hr : r.evacuationRequests ≤ w.policy.maxEvacuationAttempts) :
    r'.evacuationRequests ≤ w.policy.maxEvacuationAttempts := by
  cases h with
  | requests _ hroom => exact (Nat.mod_le _ _).trans hroom
  | excuses => exact Nat.zero_le _
  | _ => exact hr

variable {fixed : DrainPolicy}

/-- Every write keeps within the policy, the one that sets another policy aside. -/
theorem Within.write (h : Within fixed w) (hwrite : Write w ev w')
    (hev : ∀ p now, ev ≠ .call (.setPolicy p now)) : Within fixed w' := by
  refine ⟨?_, fun id r' hr' => ?_, fun id => ?_, h.assigned.write hwrite⟩
  · cases hwrite with
    | policy => exact absurd rfl (hev _ _)
    | _ => exact h.policy
  · rcases hwrite.drain_cases hr' with hold | ⟨r, hr, hedit⟩ | ⟨_, _, _, _, -, -, -, hnew, -⟩
    · exact h.attempts id r' hold
    · have hr := h.attempts id r hr
      rw [← h.policy] at hr ⊢
      exact attempts_edit hedit hr
    · rw [(mem_newDrains hnew).2.2.2]
      exact Nat.zero_le _
  · rcases grants_write hwrite id with hsame | ⟨_, _, _, _, _, -, -, hroom, happend⟩
    · rw [hsame]
      exact h.exceptions id
    · rw [happend, List.length_append, ← h.policy]
      exact hroom

theorem Within.writes (h : Within fixed w) (hwrites : Writes ev w w')
    (hev : ∀ p now, ev ≠ .call (.setPolicy p now)) : Within fixed w' :=
  hwrites.invariant (fun _ _ hwrite hw => hw.write hwrite hev) h

theorem Within.recovered {recovered : Engine} {prev : IncarnationId} (h : Within fixed e.toWorld)
    (hrec : Recovery e prev now recovered) (hpolicy : recovered.policy = fixed) :
    Within fixed recovered.toWorld := by
  refine ⟨hpolicy, fun id r' hr' => ?_, fun id => ?_, fun id grant hgrant => ?_⟩
  · obtain ⟨r, hr, -, rfl⟩ := hrec.of_drain hr'
    rw [evacuationRequests_recovered]
    exact h.attempts id r hr
  · rw [hrec.grants h.assigned, List.length_map]
    exact h.exceptions id
  · rw [hrec.grants h.assigned] at hgrant
    obtain ⟨original, horiginal, rfl⟩ := List.mem_map.mp hgrant
    exact h.assigned id original horiginal

end World

variable {fixed : DrainPolicy}

theorem within_fire (h : Within fixed e.toWorld) (hpolicy : (e.fire ev).policy = fixed) :
    Within fixed (e.fire ev).toWorld := by
  cases ev with
  | turn id now => exact h.writes (turn_writes e id now) (fun _ _ heq => by cases heq)
  | restart prev now =>
    simp only [fire, restore] at hpolicy ⊢
    cases hdecode : decodeSnapshot e.policy e.snapshot prev now with
    | error err => exact h
    | ok recovered =>
      rw [hdecode] at hpolicy
      have hrecovered : Within fixed recovered.toWorld :=
        h.recovered (decodeSnapshot_eq_ok.mp hdecode) hpolicy
      exact hrecovered
  | call c =>
    by_cases hset : ∃ p now, c = .setPolicy p now
    · obtain ⟨p, now, rfl⟩ := hset
      refine ⟨hpolicy, ?_, ?_, ?_⟩ <;> simp only [fire, apply, setPolicy] <;>
        cases p.validate <;> first | exact h.attempts | exact h.exceptions | exact h.assigned
    · refine h.writes (apply_writes e c) (fun p now heq => hset ⟨p, now, ?_⟩)
      injection heq

/-! ### The potential -/

/-- The attempts of a drain: those counted now, and for every exception the ones that
may have been counted before it. -/
def World.spent (fixed : DrainPolicy) (w : World) (id : DrainId) : Nat :=
  match w.drain id with
  | some r => fixed.maxEvacuationAttempts * (w.grants id).length + r.evacuationRequests
  | none => 0

theorem spent_le (h : Within fixed w) (id : DrainId) :
    w.spent fixed id ≤ fixed.maxEvacuationAttempts * (1 + fixed.maxExceptionExtensions) := by
  unfold World.spent
  cases hr : w.drain id with
  | none => exact Nat.zero_le _
  | some r =>
    have hattempts := h.attempts id r hr
    have hexceptions := Nat.mul_le_mul_left fixed.maxEvacuationAttempts (h.exceptions id)
    show fixed.maxEvacuationAttempts * (w.grants id).length + r.evacuationRequests ≤ _
    rw [Nat.mul_add, Nat.mul_one]
    omega

theorem spent_of_drain (h : w.drain id = some r) :
    w.spent fixed id =
      fixed.maxEvacuationAttempts * (w.grants id).length + r.evacuationRequests := by
  unfold World.spent
  rw [h]

/-- The counter and the exceptions are what they were. -/
theorem spent_of_tallied (hr : w.drain id = some r)
    (hgrants : (w'.grants id).length = (w.grants id).length) (h : Tallied w' r) :
    w'.spent fixed id = w.spent fixed id := by
  obtain rfl := id_of_drain hr
  obtain ⟨r', hr', hevac⟩ := h
  rw [spent_of_drain hr, spent_of_drain hr', hgrants, hevac]

theorem grants_writes (h : Writes ev w w') (id : DrainId)
    (hev : ∀ obligation extension authority now,
      ev ≠ .call (.grantException id obligation extension authority now)) :
    w'.grants id = w.grants id := by
  refine h.invariant (P := fun v => v.grants id = w.grants id) (fun v v' hwrite hv => ?_) rfl
  rcases grants_write hwrite id with hsame | ⟨obligation, extension, authority, now, _, -, heq, -⟩
  · exact hsame.trans hv
  · exact absurd heq (hev obligation extension authority now)

/-- An exception pays for the attempts it wipes out. -/
theorem spent_grantException (h : Within fixed e.toWorld) (id : DrainId)
    (obligation : ObligationId) (extension : Duration) (authority : AuthorityId) (now : TimePoint) :
    e.spent fixed id ≤
      (e.grantException id obligation extension authority now).1.spent fixed id := by
  rcases grantException_cases e id obligation extension authority now with
    ⟨hworld, -⟩ | ⟨r, hr, -, ⟨hworld, -⟩ | ⟨sequence, -, -, -, hworld⟩⟩
  · rw [hworld.toWorld]
  · obtain rfl := id_of_drain hr
    rw [hworld.toWorld]
    refine (spent_of_tallied hr ?_ ?_).ge
    · exact congrArg List.length (grants_budget e.toWorld r.id r.id)
    · exact ⟨r, hr, rfl⟩
  · have hattempts := h.attempts id r hr
    obtain rfl := id_of_drain hr
    let grant : ExceptionGrant :=
      { drain := r.id, obligation, extension, authority, grantedAt := now, sequence }
    have hr' : ((e.withGrant grant).withDrain r.resetEvacuationAttempts).drain r.id =
        some r.resetEvacuationAttempts := by
      rw [drain_withDrain]
      exact if_pos rfl
    have hgrants : ((e.withGrant grant).withDrain r.resetEvacuationAttempts).grants r.id =
        e.grants r.id ++ [grant] :=
      (grants_withGrant e.toWorld grant r.id).trans (if_pos rfl)
    rw [hworld.toWorld, spent_of_drain hr, spent_of_drain hr', hgrants, List.length_append, Nat.mul_add]
    show _ + r.evacuationRequests ≤ _ + fixed.maxEvacuationAttempts * 1 + 0
    omega

/-- A turn raises the potential by one when it issues requests, and only then. -/
theorem spent_turn (hvalid : fixed.validate = .ok ()) (h : Within fixed e.toWorld) (id : DrainId)
    (now : TimePoint) :
    (e.turn id now).1.spent fixed id =
      e.spent fixed id + if (e.turn id now).2 = [] then 0 else 1 := by
  have hgrants := grants_writes (turn_writes e id now) id (fun _ _ _ _ heq => by cases heq)
  cases hr : e.drain id with
  | none =>
    have hidle : e.turn id now = (e, []) := by simp [turn, hr]
    rw [hidle]
    rfl
  | some r =>
    rcases attempted_turn hr now with ⟨hnone, htallied⟩ | ⟨hissued, r', hr', hevac⟩
    · rw [if_pos hnone]
      exact spent_of_tallied hr (congrArg List.length hgrants) htallied
    · have hattempts := h.attempts id r hr
      have hlimit : fixed.maxEvacuationAttempts ≤ 1000 :=
        (DrainPolicy.validate_eq_ok.mp hvalid).maxEvacuationAttempts.2
      -- The counter is far from its 32 bits.
      have hroom : r.evacuationRequests + 1 < 2 ^ 32 := by omega
      rw [Nat.mod_eq_of_lt hroom] at hevac
      obtain rfl := id_of_drain hr
      rw [if_neg hissued, spent_of_drain hr, spent_of_drain hr', hgrants, hevac]
      rfl

/-- No event lowers the potential. -/
theorem spent_fire (hvalid : fixed.validate = .ok ()) (h : Within fixed e.toWorld) (ev : Event)
    (id : DrainId) : e.spent fixed id ≤ (e.fire ev).spent fixed id := by
  cases hr : e.drain id with
  | none =>
    unfold World.spent
    rw [hr]
    exact Nat.zero_le _
  | some r =>
    cases ev with
    | turn other now =>
      by_cases hother : id = other
      · subst hother
        show _ ≤ (e.turn id now).1.spent fixed id
        rw [spent_turn hvalid h]
        exact Nat.le_add_right _ _
      · have hgrants := grants_writes (turn_writes e other now) id
          (fun _ _ _ _ heq => by cases heq)
        have hr' : (e.turn other now).1.drain id = some r :=
          ((turn_frame e other now).others id hother).trans hr
        show _ ≤ (e.turn other now).1.spent fixed id
        rw [spent_of_drain hr, spent_of_drain hr', hgrants]
    | restart prev now =>
      simp only [fire, restore]
      cases hdecode : decodeSnapshot e.policy e.snapshot prev now with
      | error err => exact le_rfl
      | ok recovered =>
        have hrec := decodeSnapshot_eq_ok.mp hdecode
        have hafter : recovered.drain id = some (recoveredRecord now r.reloaded) := by
          rw [hrec.drain, hr, Option.map_some]
        have hsame : recovered.spent fixed id = e.spent fixed id := by
          rw [spent_of_drain hafter, spent_of_drain hr, hrec.grants h.assigned,
            List.length_map, evacuationRequests_recovered]
        exact hsame.ge
    | call c =>
      by_cases hgrant : ∃ obligation extension authority now,
          c = .grantException id obligation extension authority now
      · obtain ⟨obligation, extension, authority, now, rfl⟩ := hgrant
        exact spent_grantException h id obligation extension authority now
      · have hc : ∀ obligation extension authority now,
            c ≠ .grantException id obligation extension authority now :=
          fun obligation extension authority now heq =>
            hgrant ⟨obligation, extension, authority, now, heq⟩
        have hgrants := grants_writes (apply_writes e c) id
          (fun obligation extension authority now heq =>
            hc obligation extension authority now (by injection heq))
        exact (spent_of_tallied hr (congrArg List.length hgrants) (tallied_apply hr hc)).ge

/-! ### Passes -/

namespace Engine

/-- The operation is a pass that issues evacuation requests for the drain. -/
def asksFor (e : Engine) (id : DrainId) : Operation → Bool
  | .advance now => (e.advance now).2.evacuations.any (fun q => q.drain == id)
  | _ => false

/-- The passes of a run that issue evacuation requests for the drain. -/
def askingPasses (id : DrainId) : Engine → List Operation → Nat
  | _, [] => 0
  | e, op :: rest => (if e.asksFor id op then 1 else 0) + askingPasses id (e.perform op) rest

end Engine

/-- Over a list of turns. -/
theorem spent_turns (hvalid : fixed.validate = .ok ()) (h : Within fixed e.toWorld)
    {turns : List Event} (hturns : ∀ ev ∈ turns, ∃ id, ev = .turn id now) (id : DrainId) :
    Within fixed (run fire e turns).toWorld ∧
      e.spent fixed id ≤ (run fire e turns).spent fixed id := by
  refine run_invariant (C := fun _ ev => ∃ id, ev = .turn id now)
    (P := fun s : Engine => Within fixed s.toWorld ∧ e.spent fixed id ≤ s.spent fixed id) ?_
    ⟨h, le_rfl⟩ (always_of_forall (fun ev hev _ => hturns ev hev) e)
  rintro s ev ⟨hs, hle⟩ ⟨other, rfl⟩
  exact ⟨hs.writes (turn_writes s other now) (fun _ _ heq => by cases heq),
    hle.trans (spent_fire hvalid hs (.turn other now) id)⟩

/-- A pass that issues requests for the drain raises its potential. -/
theorem spent_advance (hvalid : fixed.validate = .ok ()) (h : Within fixed e.toWorld)
    (id : DrainId) (now : TimePoint) :
    e.spent fixed id + (if e.asksFor id (.advance now) then 1 else 0) ≤
      (e.advance now).1.spent fixed id := by
  have hturns : ∀ ev ∈ e.passTurns now, ∃ id, ev = .turn id now := by
    intro ev hev
    obtain ⟨other, -, rfl⟩ := List.mem_map.mp hev
    exact ⟨other, rfl⟩
  rw [advance_eq_run]
  split_ifs with hasks
  · obtain ⟨q, hq, hdrain⟩ := List.any_eq_true.mp hasks
    obtain ⟨pre, other, post, hsplit, hissued⟩ := mem_advance_evacuations hq
    obtain ⟨-, -, -, -, -, -, -, -, hother, -⟩ := mem_turn_requests hissued
    obtain rfl : other = id := hother.symm.trans (by simpa using hdrain)
    rw [hsplit] at hturns ⊢
    obtain ⟨hpre, hlepre⟩ := spent_turns hvalid h
      (fun ev hev => hturns ev (List.mem_append_left _ hev)) other
    have hturn := spent_turn hvalid hpre other now
    rw [if_neg (List.ne_nil_of_mem hissued)] at hturn
    have hafter : Within fixed ((run fire e pre).turn other now).1.toWorld :=
      hpre.writes (turn_writes _ other now) (fun _ _ heq => by cases heq)
    obtain ⟨-, hlepost⟩ := spent_turns hvalid hafter (fun ev hev => hturns ev
      (List.mem_append_right _ (List.mem_cons_of_mem _ hev))) other
    rw [run_append, run_cons]
    exact (Nat.add_le_add_right hlepre 1).trans (hturn ▸ hlepost)
  · exact (spent_turns hvalid h hturns id).2

/-- The policy is `fixed` after the operation. -/
def Engine.KeepsPolicy (fixed : DrainPolicy) (e : Engine) (op : Operation) : Prop :=
  (e.perform op).policy = fixed

instance (fixed : DrainPolicy) (e : Engine) (op : Operation) : Decidable (KeepsPolicy fixed e op) :=
  decidable_of_iff' _ DrainPolicy.eq_iff

theorem within_perform {op : Operation} (h : Within fixed e.toWorld)
    (hpolicy : KeepsPolicy fixed e op) : Within fixed (e.perform op).toWorld := by
  cases op with
  | call c =>
    show Within fixed (e.fire (.call c)).toWorld
    exact within_fire h hpolicy
  | restart prev now =>
    show Within fixed (e.fire (.restart prev now)).toWorld
    exact within_fire h hpolicy
  | advance now =>
    exact advance_invariant (P := fun e : Engine => Within fixed e.toWorld)
      (fun e id h => h.writes (turn_writes e id now) (fun _ _ heq => by cases heq)) h

theorem spent_perform (hvalid : fixed.validate = .ok ()) (h : Within fixed e.toWorld)
    (op : Operation) (id : DrainId) :
    e.spent fixed id + (if e.asksFor id op then 1 else 0) ≤ (e.perform op).spent fixed id := by
  cases op with
  | call c => exact spent_fire hvalid h (.call c) id
  | restart prev now => exact spent_fire hvalid h (.restart prev now) id
  | advance now => exact spent_advance hvalid h id now

/-- The passes still to come are paid for by what is left of the budget. -/
theorem askingPasses_le (hvalid : fixed.validate = .ok ()) (h : Within fixed e.toWorld)
    (hfixed : Always perform (KeepsPolicy fixed) e operations) (id : DrainId) :
    askingPasses id e operations + e.spent fixed id ≤
      fixed.maxEvacuationAttempts * (1 + fixed.maxExceptionExtensions) := by
  induction operations generalizing e with
  | nil =>
    rw [askingPasses, Nat.zero_add]
    exact spent_le h id
  | cons op rest ih =>
    have hrest := ih (within_perform h hfixed.1) hfixed.2
    have hstep := spent_perform hvalid h op id
    rw [askingPasses]
    omega

/-! ### Settling -/

theorem saturatingAdd_mono {a b : Int} (h : a ≤ b) (delta : Int) :
    saturatingAdd a delta ≤ saturatingAdd b delta := by
  have hsum : ∀ base : Int, saturatingAdd base delta =
      if 0 < delta ∧ i64Max - delta < base then i64Max
      else if delta < 0 ∧ base < i64Min - delta then i64Min else base + delta := fun _ => rfl
  rw [hsum, hsum]
  show (_ : Int) ≤ _
  split_ifs <;> omega

/-- The fence of every drain that holds one was closed no later than the record says, and
by now it has settled if the drain has left `AdmissionClosed`. -/
def World.Settling (fixed : DrainPolicy) (clock : TimePoint) (w : World) : Prop :=
  ∀ id r, w.drain id = some r → isFenceHoldingState r.phase = true →
    ∃ entry, w.fence.entry r.target = some entry ∧ 0 ≤ entry.closedAt ∧
      entry.closedAt ≤ r.admissionClosedAt ∧ r.admissionClosedAt ≤ clock ∧
      (r.phase ≠ .admissionClosed →
        saturatingAdd entry.closedAt fixed.admissionFenceSettle ≤ clock)

theorem World.Settling.mono {later : TimePoint} (h : Settling fixed clock w) (hle : clock ≤ later) :
    Settling fixed later w := by
  intro id r hr hp
  obtain ⟨entry, hentry, hnonneg, hdate, hclock, hsettled⟩ := h id r hr hp
  exact ⟨entry, hentry, hnonneg, hdate, hclock.trans hle, fun hne => (hsettled hne).trans hle⟩

theorem settling_recovered {recovered : Engine} {policy : DrainPolicy} {prev : IncarnationId}
    (hdecode : decodeSnapshot policy e.snapshot prev now = .ok recovered)
    (hclock : clock ≤ i64Max) (h : Settling fixed clock e.toWorld) :
    Settling fixed clock recovered.toWorld := by
  intro id r' hr' hp
  have hworld : Recovered e.toWorld recovered.toWorld := decodeSnapshot_recovered hdecode
  obtain ⟨r, hr, -, rfl⟩ := (decodeSnapshot_eq_ok.mp hdecode).of_drain hr'
  have hrestarted := restarted_recoveredRecord now r
  rw [hrestarted.phase] at hp ⊢
  obtain ⟨entry, hentry, hnonneg, hdate, hat, hsettled⟩ := h id r hr hp
  -- Dates that a snapshot can represent are recovered as they were.
  have hclosedAt : entry.persisted.closedAt = entry.closedAt :=
    persistedCount_of_nonneg hnonneg (hdate.trans (hat.trans hclock))
  have hadmission : (recoveredRecord now r.reloaded).admissionClosedAt = r.admissionClosedAt := by
    rw [admissionClosedAt_recovered]
    exact persistedCount_of_nonneg (hnonneg.trans hdate) (hat.trans hclock)
  refine ⟨entry.persisted, ?_, ?_⟩
  · rw [hrestarted.target, entry_of_loaded hworld.fence, hentry]
    rfl
  · rw [hclosedAt, hadmission]
    exact ⟨hnonneg, hdate, hat, hsettled⟩

/-- A drain that holds its fence is not settled. -/
theorem not_settled_of_holding (hp : isFenceHoldingState r.phase = true) :
    isSettled r.state = false ∧ isGone r.phase = false ∧ r.phase ≠ .validating := by
  refine ⟨?_, ?_, ?_⟩
  · rw [Bool.eq_false_iff]
    intro hsettled
    rw [phase_of_settled hsettled] at hp
    revert hp hsettled
    cases r.state <;> decide
  · revert hp
    cases r.phase <;> decide
  · intro hv
    rw [hv] at hp
    cases hp

/-- A drain leaves `AdmissionClosed` for a later state in its own turn. -/
theorem World.Fate.turn_of_closing {r' : DrainRecord} (h : Fate w id r' w' ev)
    (hr : w.drain id = some r) (hp : r.phase = .admissionClosed)
    (hp' : isFenceHoldingState r'.phase = true) (hne : r'.phase ≠ .admissionClosed) :
    ∃ now, ev = .turn id now := by
  have hsame : ∀ {q : DrainRecord}, w.drain id = some q → q.phase = .admissionClosed := by
    intro q hq
    rwa [Option.some.inj (hq.symm.trans hr)]
  have hstate : ∀ {state : DrainState}, r'.state = state → state ≠ .blocked →
      isFenceHoldingState state = true := by
    intro state hs hb
    rwa [DrainRecord.phase_of_state hs hb] at hp'
  cases h with
  | born hnone => cases hnone.symm.trans hr
  | keeps hq kept => exact absurd (kept.phase.trans (hsame hq)) hne
  | moves => exact ⟨_, rfl⟩
  | closes => exact ⟨_, rfl⟩
  | retries => exact ⟨_, rfl⟩
  | settles => exact ⟨_, rfl⟩
  | cancels _ _ _ _ hs => cases hstate hs (by decide)
  | reopens _ _ _ _ hs => cases hstate hs (by decide)
  | refused hq => exact absurd (hsame hq) hne

theorem settling_fire (hpolicy : e.policy = fixed) (hfenced : Fenced e.toWorld)
    (hexclusive : Exclusive e.toWorld) (h : Settling fixed clock e.toWorld)
    (hclock : clock ≤ ev.time) (htime : 0 ≤ ev.time ∧ ev.time ≤ i64Max) :
    Settling fixed ev.time (e.fire ev).toWorld := by
  have hnow := h.mono hclock
  by_cases hrestart : ∃ prev now, ev = .restart prev now
  · obtain ⟨prev, now, rfl⟩ := hrestart
    exact restart_rule hnow (fun _ hdecode => settling_recovered hdecode htime.2 hnow)
  have hev : ∀ prev now, ev ≠ .restart prev now :=
    fun prev now heq => hrestart ⟨prev, now, heq⟩
  intro id r' hr' hp'
  have hfate := (fire_drainStep e ev).fate hr'
  obtain ⟨r, hr, hphase⟩ := hfate.fenceHolding hp'
  obtain ⟨q, hq, hdated⟩ := fire_dated hev hr
  obtain rfl := Option.some.inj (hq.symm.trans hr')
  rcases hphase with hp | ⟨hv, -⟩
  · -- The drain held the fence before, and nobody else touched its entry.
    obtain ⟨hunsettled, hgone, hclosed⟩ := not_settled_of_holding hp
    obtain ⟨entry, hentry, hnonneg, hdate, hat, hsettled⟩ := hnow id r hr hp
    have hsame : (e.fire ev).fence.entry q.target = some entry := by
      rw [hfate.target hr]
      rcases (fire_drainStep e ev).entry_kept hexclusive hr (hfenced.held id r hr hp) hgone hclosed
        hev with hsame | ⟨hsettled, -⟩
      · rw [hsame, hentry]
      · rw [hunsettled] at hsettled
        cases hsettled
    have hlater : entry.closedAt ≤ q.admissionClosedAt ∧ q.admissionClosedAt ≤ ev.time := by
      rcases hdated.kept with heq | heq <;> rw [heq]
      · exact ⟨hdate, hat⟩
      · exact ⟨hdate.trans hat, le_rfl⟩
    refine ⟨entry, hsame, hnonneg, hlater.1, hlater.2, fun hne => ?_⟩
    by_cases hclosing : r.phase = .admissionClosed
    · obtain ⟨now, rfl⟩ := hfate.turn_of_closing hr hclosing hp' hne
      obtain ⟨q', hq', hturned⟩ := turn_closing hr hclosing now
      obtain rfl := Option.some.inj (hq'.symm.trans hr')
      rw [hpolicy] at hturned
      exact (saturatingAdd_mono hlater.1 _).trans (hturned.resolve_left hne)
    · exact hsettled hclosing
  · -- The drain closed admission just now.
    have hs' : q.state = .admissionClosed := by
      obtain ⟨r₀, hr₀, hbeyond | ⟨-, hs'⟩⟩ := hfate.beyond (Or.inl hp')
      · obtain rfl := Option.some.inj (hr.symm.trans hr₀)
        exact absurd hbeyond (DrainRecord.not_beyond_of_validating hv)
      · exact hs'
    have hphase' : q.phase = .admissionClosed := DrainRecord.phase_of_state hs' (by decide)
    obtain ⟨entry, hentry, hclosedAt⟩ := (fire_drainStep e ev).closedAt hr hv hr' hs'
    have hdate : q.admissionClosedAt = ev.time := hdated.of_closing hv hp'
    refine ⟨entry, (hfate.target hr).symm ▸ hentry, ?_, ?_, hdate.le, fun hne => absurd hphase' hne⟩
    · exact hclosedAt.symm ▸ htime.1
    · rw [hclosedAt, hdate]

/-! ### Runs of operations -/

def Operation.time : Operation → TimePoint
  | .call c => c.time
  | .advance now => now
  | .restart _ now => now

/-- What the settling of fences rests on. -/
structure Engine.Timed (fixed : DrainPolicy) (clock : TimePoint) (e : Engine) : Prop where
  policy : e.policy = fixed
  fenced : Fenced e.toWorld
  exclusive : Exclusive e.toWorld
  settling : Settling fixed clock e.toWorld

theorem timed_fire (h : Timed fixed clock e) (hpolicy : (e.fire ev).policy = fixed)
    (hclock : clock ≤ ev.time) (htime : 0 ≤ ev.time ∧ ev.time ≤ i64Max) :
    Timed fixed ev.time (e.fire ev) :=
  ⟨hpolicy, fenced_fire e ev h.fenced, exclusive_fire e ev h.exclusive,
    settling_fire h.policy h.fenced h.exclusive h.settling hclock htime⟩

theorem timed_perform {op : Operation} (h : Timed fixed clock e)
    (hpolicy : KeepsPolicy fixed e op) (hclock : clock ≤ op.time)
    (htime : 0 ≤ op.time ∧ op.time ≤ i64Max) : Timed fixed op.time (e.perform op) := by
  cases op with
  | call c =>
    show Timed fixed (Event.call c).time (e.fire (.call c))
    exact timed_fire h hpolicy hclock htime
  | restart prev now =>
    show Timed fixed (Event.restart prev now).time (e.fire (.restart prev now))
    exact timed_fire h hpolicy hclock htime
  | advance now =>
    refine advance_invariant (P := Timed fixed now) (fun e id h => ?_)
      ⟨h.policy, h.fenced, h.exclusive, h.settling.mono hclock⟩
    show Timed fixed (Event.turn id now).time (e.fire (.turn id now))
    exact timed_fire h ((turn_frame e id now).policy.trans h.policy) le_rfl htime

theorem timed_run {bound : TimePoint} (h : Timed fixed clock e)
    (hfixed : Always perform (KeepsPolicy fixed) e operations)
    (hordered : operations.Pairwise (fun a b => a.time ≤ b.time))
    (htimes : ∀ op ∈ operations, clock ≤ op.time ∧ op.time ≤ bound ∧ 0 ≤ op.time ∧
      op.time ≤ i64Max) (hbound : clock ≤ bound) :
    Timed fixed bound (run perform e operations) := by
  refine run_ordered (P := fun clock e => Timed fixed clock e)
    (C := fun e op => KeepsPolicy fixed e op ∧ 0 ≤ op.time ∧ op.time ≤ i64Max)
    (fun clock later e hle h => ⟨h.policy, h.fenced, h.exclusive, h.settling.mono hle⟩)
    (fun clock e (op : Operation) h hop (hclock : clock ≤ op.time) =>
      timed_perform h hop.1 hclock hop.2) h ?_ hordered
    (fun op hop => ⟨(htimes op hop).1, (htimes op hop).2.1⟩) hbound
  exact hfixed.and (always_of_forall (fun op hop _ => (htimes op hop).2.2) e)

/-- A pass asks for evacuations on behalf of drains that were evacuating before it. -/
theorem evacuating_of_request {q : EvacuationRequest} (h : q ∈ (e.advance now).2.evacuations) :
    ∃ r, e.drain q.drain = some r ∧ r.phase = .evacuating := by
  obtain ⟨pre, id, post, hsplit, hissued⟩ := mem_advance_evacuations h
  obtain ⟨r, -, -, hr, hphase, -, -, -, rfl, -⟩ := mem_turn_requests hissued
  have hothers : ∀ ev ∈ pre, ∃ other, other ≠ q.drain ∧ ev = .turn other now := fun ev hev =>
    passTurns_split hsplit ev (List.mem_append_left _ hev)
  exact ⟨r, (run_others hothers e).1.symm.trans hr, hphase⟩

theorem within_run (h : Within fixed e.toWorld)
    (hfixed : Always perform (KeepsPolicy fixed) e operations) :
    Within fixed (run perform e operations).toWorld :=
  run_invariant (P := fun e : Engine => Within fixed e.toWorld)
    (fun _ _ h hpolicy => within_perform h hpolicy) h hfixed

/-- Under a fixed valid policy and at ordered times: the counter of a drain stays within
the attempts of the policy; the passes that ask for its evacuation are at most one run of
attempts and another one for every exception; and, at times a snapshot can represent, no
pass asks before the fence of the drain has settled. -/
theorem evacuation_budget {policy : DrainPolicy} (hvalid : policy.validate = .ok ())
    {operations : List Operation}
    (hfixed : Always perform (KeepsPolicy policy) (Engine.init policy) operations)
    (hordered : operations.Pairwise (fun a b => a.time ≤ b.time)) (id : DrainId) :
    (∀ r, (run perform (Engine.init policy) operations).drain id = some r →
      r.evacuationRequests ≤ policy.maxEvacuationAttempts) ∧
    askingPasses id (Engine.init policy) operations ≤
      policy.maxEvacuationAttempts * (1 + policy.maxExceptionExtensions) ∧
    ((∀ op ∈ operations, 0 ≤ op.time ∧ op.time ≤ i64Max) →
      ∀ pre now post, operations = pre ++ .advance now :: post →
        ∀ q ∈ ((run perform (Engine.init policy) pre).advance now).2.evacuations,
          ∃ r entry, (run perform (Engine.init policy) pre).drain q.drain = some r ∧
            (run perform (Engine.init policy) pre).fence.entry r.target = some entry ∧
            saturatingAdd entry.closedAt policy.admissionFenceSettle ≤ now) := by
  have hinit := within_init policy
  refine ⟨(within_run hinit hfixed).attempts id, ?_, ?_⟩
  · have hpaid := askingPasses_le hvalid hinit hfixed id
    exact (Nat.le_add_right _ _).trans hpaid
  · rintro htimes pre now post rfl q hq
    obtain ⟨hpre, hcross⟩ := List.pairwise_append.mp hordered |>.imp_right And.right
    have hstart : Timed policy 0 (Engine.init policy) :=
      ⟨rfl, fenced_init policy, exclusive_init policy, fun _ _ h => by simp at h⟩
    have hnow := htimes (.advance now) (List.mem_append_right _ List.mem_cons_self)
    have htimed : Timed policy now (run perform (Engine.init policy) pre) := by
      refine timed_run hstart (always_append.mp hfixed).1 hpre (fun op hop => ?_) hnow.1
      have htime := htimes op (List.mem_append_left _ hop)
      exact ⟨htime.1, hcross op hop _ List.mem_cons_self, htime⟩
    obtain ⟨r, hr, hphase⟩ := evacuating_of_request hq
    obtain ⟨entry, hentry, -, -, -, hsettled⟩ := htimed.settling _ r hr (by rw [hphase]; rfl)
    exact ⟨r, entry, hr, hentry, hsettled (by rw [hphase]; decide)⟩

namespace OnePort

/-- A port with a flow on it is drained up to `Evacuating`; then the engine restarts. -/
def restartedEvacuating (now : TimePoint) : List Operation :=
  (setup now ++ [admitFlow now]).map .call ++ List.replicate 3 (.advance now) ++ [.restart 1 now]

end OnePort

/-- The pass after the restart asks for the flow, well within the budget. -/
theorem evacuation_budget_restarted :
    askingPasses 1 (Engine.init {}) (OnePort.restartedEvacuating 1 ++ [.advance 1]) = 1 ∧
    askingPasses 1 (Engine.init {}) (OnePort.restartedEvacuating 1 ++ [.advance 1]) ≤
      DrainPolicy.maxEvacuationAttempts {} * (1 + DrainPolicy.maxExceptionExtensions {}) ∧
    ∀ q ∈ ((run perform (Engine.init {}) (OnePort.restartedEvacuating 1)).advance 1).2.evacuations,
      ∃ r entry, (run perform (Engine.init {}) (OnePort.restartedEvacuating 1)).drain q.drain =
          some r ∧
        (run perform (Engine.init {}) (OnePort.restartedEvacuating 1)).fence.entry r.target =
          some entry ∧
        saturatingAdd entry.closedAt (DrainPolicy.admissionFenceSettle {}) ≤ 1 := by
  have hbudget := @evacuation_budget {} (by decide)
    (OnePort.restartedEvacuating 1 ++ [.advance 1]) (by decide +kernel) (by decide) 1
  exact ⟨by decide +kernel, hbudget.2.1, hbudget.2.2 (by decide) _ 1 [] rfl⟩

/-- Before time zero the snapshot dates the closure of a fence at zero: a pass after the
restart asks for evacuations although the restored fence is not settled yet. -/
theorem request_before_restored_fence_settles :
    DrainPolicy.validate {} = .ok () ∧
    Always perform (KeepsPolicy {}) (Engine.init {})
      (OnePort.restartedEvacuating (-1) ++ [.advance (-1)]) ∧
    (OnePort.restartedEvacuating (-1) ++ [Operation.advance (-1)]).Pairwise
      (fun a b => a.time ≤ b.time) ∧
    ((run perform (Engine.init {}) (OnePort.restartedEvacuating (-1))).advance
      (-1)).2.evacuations.map (fun q => (q.drain, q.target)) = [(1, OnePort.port)] ∧
    ((run perform (Engine.init {}) (OnePort.restartedEvacuating (-1))).fence.entry
      OnePort.port).map (·.closedAt) = some 0 ∧
    ¬ saturatingAdd 0 (DrainPolicy.admissionFenceSettle {}) ≤ -1 := by
  decide +kernel

end DrainFabric
