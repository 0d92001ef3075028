import DrainFabric.Engine.Asking
import DrainFabric.Engine.History
import DrainFabric.Properties.EvacuationBudget

/-!
# The spacing of evacuation requests

`evacuation_retry_interval` is documented as the minimum spacing between repeat requests
for the same obligation. The step in `Evacuating` compares the clock with the date of the
last attempt, but only if the counter of attempts is not zero, and an exception sets the
counter to zero. A request issued just before an exception and one issued just after it
are therefore not spaced.

What a request leaves behind is an invariant (`Spaced`): the drain remembers a date not
before the request, and either its counter says that the date is compared, or the interval
has passed. Every event keeps this, blocking and restarts included, except for an exception
that comes too soon.

* `spaced_fire` — one event;
* `Spacing` — the requests issued so far, and what they leave behind;
* `GrantsSpaced` — exceptions are granted when the drain could ask again anyway.
-/

namespace DrainFabric

open Lib World Engine

variable {q : EvacuationRequest} {id : DrainId} {now : TimePoint}

/-- Two requests for the same obligation on behalf of the same drain are `interval` apart. -/
def EvacuationRequest.Apart (interval : Duration) (a b : EvacuationRequest) : Prop :=
  a.drain = b.drain → a.obligation = b.obligation → a.at_ + interval ≤ b.at_

/-- What a request leaves true of its drain. -/
structure World.Spaced (interval : Duration) (clock : TimePoint) (w : World)
    (q : EvacuationRequest) : Prop where
  past : q.at_ ≤ clock
  dated : ∃ r, w.drain q.drain = some r ∧ q.at_ ≤ r.lastEvacuationAt ∧
    r.lastEvacuationAt ≤ i64Max ∧ (r.evacuationRequests ≠ 0 ∨ q.at_ + interval ≤ clock)

theorem World.Spaced.mono {interval : Duration} {clock later : TimePoint} {w : World}
    (h : w.Spaced interval clock q) (hle : clock ≤ later) : w.Spaced interval later q := by
  obtain ⟨r, hr, hdate, hmax, hcounted⟩ := h.dated
  exact ⟨h.past.trans hle, r, hr, hdate, hmax, hcounted.imp_right (fun hgone => hgone.trans hle)⟩

/-! ### Dates and counters through an event -/

/-- A date that is written as a count comes back no earlier. -/
theorem le_persistedCount {count : Int} (h : count ≤ i64Max) :
    count ≤ persistedCount count ∧ persistedCount count ≤ i64Max := by
  by_cases hneg : 0 ≤ count
  · rw [persistedCount_of_nonneg hneg h]
    exact ⟨le_rfl, h⟩
  · have hcast : 0 ≤ persistedCount count ∧ persistedCount count ≤ i64Max := by
      simp only [persistedCount, JsonValue.ofCount, JsonValue.asInt]
      split_ifs with hfits
      · exact ⟨Int.natCast_nonneg _, hfits⟩
      · exact ⟨le_rfl, by decide⟩
    exact ⟨(not_le.mp hneg).le.trans hcast.1, hcast.2⟩

/-- An event dates the last attempt at its own time, or leaves the date alone. -/
theorem lastEvacuationAt_fire {e : Engine} {ev : Event} {r : DrainRecord} {date : TimePoint}
    (hr : e.drain id = some r) (htime : date ≤ ev.time ∧ ev.time ≤ i64Max)
    (hdate : date ≤ r.lastEvacuationAt ∧ r.lastEvacuationAt ≤ i64Max) :
    ∃ r', (e.fire ev).drain id = some r' ∧ date ≤ r'.lastEvacuationAt ∧
      r'.lastEvacuationAt ≤ i64Max := by
  obtain ⟨r', hr', hkept⟩ := @fire_record
    (fun r r' => date ≤ r.lastEvacuationAt ∧ r.lastEvacuationAt ≤ i64Max →
      date ≤ r'.lastEvacuationAt ∧ r'.lastEvacuationAt ≤ i64Max)
    e ev (fun _ h => h)
    (fun w r₀ r r' hedit hbefore h => by
      cases hedit with
      | requests => exact htime
      | _ => exact hbefore h)
    id r (fun prev now _ h => by
      have hback := le_persistedCount h.2
      have hsame : (recoveredRecord now r.reloaded).lastEvacuationAt =
          persistedCount r.lastEvacuationAt := by
        unfold recoveredRecord
        split_ifs <;> rfl
      rw [hsame]
      exact ⟨h.1.trans hback.1, hback.2⟩) hr
  exact ⟨r', hr', hkept hdate⟩

section

variable {fixed : DrainPolicy} {e : Engine} {clock : TimePoint}

/-- Only an exception sets the counter back to zero. -/
theorem counted_fire (hvalid : fixed.validate = .ok ()) (h : Within fixed e.toWorld) {ev : Event}
    {r r' : DrainRecord} (hr : e.drain id = some r) (hr' : (e.fire ev).drain id = some r')
    (hcounted : r.evacuationRequests ≠ 0) (hgrant : ∀ obligation extension authority now,
      ev ≠ .call (.grantException id obligation extension authority now)) :
    r'.evacuationRequests ≠ 0 := by
  -- The counter is the same, or one more.
  have htallied : ∀ {w : World}, w.drain id = some r' → w.Tallied r →
      r'.evacuationRequests ≠ 0 := by
    rintro w hw ⟨q, hq, hsame⟩
    rw [id_of_drain hr, hw] at hq
    rwa [Option.some.inj hq, hsame]
  cases ev with
  | call c =>
    refine htallied hr' (tallied_apply hr (fun obligation extension authority now heq => ?_))
    exact hgrant obligation extension authority now (by rw [heq])
  | turn other now =>
    by_cases hother : id = other
    · subst hother
      rcases attempted_turn hr now with ⟨-, hkept⟩ | ⟨-, q, hq, hnext⟩
      · exact htallied hr' hkept
      · have hattempts := h.attempts id r hr
        have hlimit : fixed.maxEvacuationAttempts ≤ 1000 :=
          (DrainPolicy.validate_eq_ok.mp hvalid).maxEvacuationAttempts.2
        rw [id_of_drain hr] at hq
        rw [Option.some.inj (hr'.symm.trans hq), hnext]
        omega
    · have hsame : (e.turn other now).1.drain id = some r :=
        ((turn_frame e other now).others id hother).trans hr
      rwa [Option.some.inj (hr'.symm.trans hsame)]
  | restart prev now =>
    simp only [fire, restore] at hr'
    cases hdecode : decodeSnapshot e.policy e.snapshot prev now with
    | error err =>
      rw [hdecode] at hr'
      rwa [Option.some.inj (hr'.symm.trans hr)]
    | ok recovered =>
      rw [hdecode] at hr'
      have hafter : recovered.drain id = some (recoveredRecord now r.reloaded) := by
        rw [(decodeSnapshot_eq_ok.mp hdecode).drain, hr, Option.map_some]
      rw [Option.some.inj (hr'.symm.trans hafter), evacuationRequests_recovered]
      exact hcounted

/-- Every event keeps what a request left behind, an exception that is granted too soon
aside. -/
theorem spaced_fire (hvalid : fixed.validate = .ok ()) (h : Within fixed e.toWorld) {ev : Event}
    {q : EvacuationRequest} (hq : e.Spaced fixed.evacuationRetryInterval clock q)
    (hclock : clock ≤ ev.time) (hmax : ev.time ≤ i64Max)
    (hgrant : ∀ obligation extension authority now r,
      ev = .call (.grantException q.drain obligation extension authority now) →
      e.drain q.drain = some r → r.evacuationRequests = 0 ∨
        r.lastEvacuationAt + fixed.evacuationRetryInterval ≤ now) :
    (e.fire ev).Spaced fixed.evacuationRetryInterval ev.time q := by
  obtain ⟨r, hr, hdate, hdateMax, hcounted⟩ := hq.dated
  obtain ⟨r', hr', hdate'⟩ :=
    lastEvacuationAt_fire hr ⟨hq.past.trans hclock, hmax⟩ ⟨hdate, hdateMax⟩
  refine ⟨hq.past.trans hclock, r', hr', hdate'.1, hdate'.2, ?_⟩
  rcases hcounted with hcounted | hgone
  · by_cases hexcused : ∃ obligation extension authority now,
        ev = .call (.grantException q.drain obligation extension authority now)
    · obtain ⟨obligation, extension, authority, now, rfl⟩ := hexcused
      refine Or.inr ?_
      have hdue := (hgrant obligation extension authority now r rfl hr).resolve_left hcounted
      have htime : (Event.call (.grantException q.drain obligation extension authority now)).time =
          now := rfl
      rw [htime]
      exact (Int.add_le_add_right hdate _).trans hdue
    · refine Or.inl (counted_fire hvalid h hr hr' hcounted ?_)
      intro obligation extension authority now heq
      exact hexcused ⟨obligation, extension, authority, now, heq⟩
  · exact Or.inr (hgone.trans hclock)

/-! ### The requests of a run -/

/-- The requests `past` that were issued so far are spaced, and so will be the next. -/
structure Engine.Spacing (fixed : DrainPolicy) (clock : TimePoint) (e : Engine)
    (past : List EvacuationRequest) : Prop where
  within : Within fixed e.toWorld
  apart : past.Pairwise (EvacuationRequest.Apart fixed.evacuationRetryInterval)
  spaced : ∀ q ∈ past, e.Spaced fixed.evacuationRetryInterval clock q

variable {past : List EvacuationRequest}

/-- Before the end of the clock the end of the interval is not cut off. -/
theorem add_le_of_saturatingAdd_le {base delta now : Int} (hnow : now < i64Max)
    (hdelta : 0 ≤ delta) (h : saturatingAdd base delta ≤ now) : base + delta ≤ now := by
  unfold saturatingAdd at h
  split_ifs at h with hhigh hlow
  · exact absurd hnow (not_lt.mpr h)
  · exact absurd hlow.1 (not_lt.mpr hdelta)
  · exact h

/-- A turn asks for an obligation again only after the interval. -/
theorem apart_of_turn (hvalid : fixed.validate = .ok ()) (hpolicy : e.policy = fixed)
    (hnow : now < i64Max) {a b : EvacuationRequest}
    (ha : e.Spaced fixed.evacuationRetryInterval now a) (hb : b ∈ (e.turn id now).2) :
    a.Apart fixed.evacuationRetryInterval b := by
  intro hdrain _
  obtain ⟨r, r₁, hr, hresumed, -, hask, -, hlist⟩ := turn_asking hb
  rw [hlist] at hb
  obtain ⟨o, -, rfl⟩ := List.mem_map.mp hb
  have hsame : r₁.id = r.id ∧ r₁.evacuationRequests = r.evacuationRequests ∧
      r₁.lastEvacuationAt = r.lastEvacuationAt := by
    rcases hresumed with rfl | rfl <;> exact ⟨rfl, rfl, rfl⟩
  have hid : a.drain = id := (hdrain.trans hsame.1).trans (id_of_drain hr)
  obtain ⟨r', hr', hdate, -, hcounted⟩ := ha.dated
  rw [hid, hr] at hr'
  obtain rfl := Option.some.inj hr'
  show a.at_ + fixed.evacuationRetryInterval ≤ now
  rcases hcounted with hcounted | hgone
  · have hinterval : 0 ≤ fixed.evacuationRetryInterval :=
      (DrainPolicy.validate_eq_ok.mp hvalid).evacuationRetryInterval
    have hdue := hask.due.resolve_left (by rwa [hsame.2.1])
    have hpolicy' : (e.toWorld.withDrain r₁).policy = fixed := hpolicy
    rw [hpolicy', hsame.2.2] at hdue
    exact (Int.add_le_add_right hdate _).trans (add_le_of_saturatingAdd_le hnow hinterval hdue)
  · exact hgone

/-- The requests of a turn are dated, and their drain counts them. -/
theorem spaced_of_turn (hvalid : fixed.validate = .ok ()) (h : Within fixed e.toWorld)
    (hnow : now < i64Max) (hq : q ∈ (e.turn id now).2) :
    (e.turn id now).1.Spaced fixed.evacuationRetryInterval now q := by
  obtain ⟨r, r₁, hr, hresumed, -, hask, hworld, hlist⟩ := turn_asking hq
  rw [hlist] at hq
  obtain ⟨o, -, rfl⟩ := List.mem_map.mp hq
  refine ⟨le_rfl, r₁.noteEvacuationAttempt now, ?_, le_rfl, hnow.le, Or.inl ?_⟩
  · rw [hworld, drain_withDrain]
    exact if_pos rfl
  · have hlimit : fixed.maxEvacuationAttempts ≤ 1000 :=
      (DrainPolicy.validate_eq_ok.mp hvalid).maxEvacuationAttempts.2
    have hroom := (evaluateEvacuation_nil_iff.mp hask.clear).2 hask.moving
    have hpolicy : (e.toWorld.withDrain r₁).policy = fixed := h.policy
    rw [hpolicy] at hroom
    show (r₁.evacuationRequests + 1) % 2 ^ 32 ≠ 0
    omega

theorem Engine.Spacing.turn (hvalid : fixed.validate = .ok ()) (hnow : now < i64Max)
    (h : e.Spacing fixed now past) (id : DrainId) :
    (e.turn id now).1.Spacing fixed now (past ++ (e.turn id now).2) := by
  have hkept : ∀ q ∈ past, (e.turn id now).1.Spaced fixed.evacuationRetryInterval now q :=
    fun q hq => @spaced_fire fixed e now hvalid h.within (.turn id now) q (h.spaced q hq) le_rfl
      hnow.le (fun _ _ _ _ _ heq => by cases heq)
  refine ⟨h.within.writes (turn_writes e id now) (fun _ _ heq => by cases heq), ?_, ?_⟩
  · refine List.pairwise_append.mpr ⟨h.apart, ?_, fun a ha b hb =>
      apart_of_turn hvalid h.within.policy hnow (h.spaced a ha) hb⟩
    -- The requests of one attempt are for different obligations.
    by_cases hnone : (e.turn id now).2 = []
    · rw [hnone]
      exact List.Pairwise.nil
    · obtain ⟨q, hq⟩ := List.exists_mem_of_ne_nil _ hnone
      obtain ⟨r, r₁, -, -, -, -, -, hlist⟩ := turn_asking hq
      rw [hlist]
      refine (List.pairwise_map.mp (nodup_requestsFor _ r₁ now)).imp ?_
      intro a b hne _ hsame
      exact absurd hsame hne
  · intro q hq
    rcases List.mem_append.mp hq with hold | hnew
    · exact hkept q hold
    · exact spaced_of_turn hvalid h.within hnow hnew

theorem Engine.Spacing.pass (hvalid : fixed.validate = .ok ()) (hnow : now < i64Max)
    (ids : List DrainId) {acc : Engine × PendingActions}
    (h : acc.1.Spacing fixed now (past ++ acc.2.evacuations)) :
    (ids.foldl (passStep now) acc).1.Spacing fixed now
      (past ++ (ids.foldl (passStep now) acc).2.evacuations) := by
  induction ids generalizing acc with
  | nil => exact h
  | cons id rest ih =>
    have hturn := h.turn hvalid hnow id
    rw [List.append_assoc] at hturn
    have hnext : (passStep now acc id).1.Spacing fixed now
        (past ++ (passStep now acc id).2.evacuations) := hturn
    exact ih hnext

end

/-! ### Runs of operations -/

/-- The drain that is to be granted an exception. -/
def Operation.excused : Operation → Option DrainId
  | .call (.grantException id _ _ _ _) => some id
  | _ => none

namespace Engine

/-- The requests issued by an operation. -/
def issued (e : Engine) : Operation → List EvacuationRequest
  | .advance now => (e.advance now).2.evacuations
  | _ => []

/-- The requests issued in a run, in their order. -/
def requested : Engine → List Operation → List EvacuationRequest
  | _, [] => []
  | e, op :: rest => e.issued op ++ requested (e.perform op) rest

/-- The clock is not at its end, and an exception is granted to a drain that has made no
attempt since the last one, or whose next attempt is due. -/
def GrantsSpaced (e : Engine) (op : Operation) : Prop :=
  op.time < i64Max ∧ ∀ id ∈ op.excused, ∀ r ∈ e.drain id, r.evacuationRequests = 0 ∨
    r.lastEvacuationAt + e.policy.evacuationRetryInterval ≤ op.time

instance (e : Engine) (op : Operation) : Decidable (e.GrantsSpaced op) :=
  inferInstanceAs (Decidable (_ ∧ _))

theorem Spacing.perform {fixed : DrainPolicy} (hvalid : fixed.validate = .ok ()) {e : Engine}
    {clock : TimePoint} {past : List EvacuationRequest} (h : e.Spacing fixed clock past)
    {op : Operation} (hpolicy : KeepsPolicy fixed e op) (hgrants : e.GrantsSpaced op)
    (hclock : clock ≤ op.time) : (e.perform op).Spacing fixed op.time (past ++ e.issued op) := by
  cases op with
  | advance now =>
    have hstart : Spacing fixed now (e, ({} : PendingActions)).1
        (past ++ (e, ({} : PendingActions)).2.evacuations) :=
      ⟨h.within, by simpa using h.apart, fun q hq => (h.spaced q (by simpa using hq)).mono hclock⟩
    exact Spacing.pass hvalid hgrants.1 e.drains.keys hstart
  | restart prev now =>
    refine ⟨within_perform h.within hpolicy, by simpa [issued] using h.apart, fun q hq => ?_⟩
    have hq : q ∈ past := by simpa [issued] using hq
    exact @spaced_fire fixed e clock hvalid h.within (.restart prev now) q (h.spaced q hq) hclock
      hgrants.1.le (fun _ _ _ _ _ heq => by cases heq)
  | call c =>
    refine ⟨within_perform h.within hpolicy, by simpa [issued] using h.apart, fun q hq => ?_⟩
    have hq : q ∈ past := by simpa [issued] using hq
    refine @spaced_fire fixed e clock hvalid h.within (.call c) q (h.spaced q hq) hclock
      hgrants.1.le (fun obligation extension authority now r heq hr => ?_)
    obtain rfl : c = .grantException q.drain obligation extension authority now := by
      injection heq
    rw [← h.within.policy]
    exact hgrants.2 q.drain rfl r hr

theorem Spacing.requests {fixed : DrainPolicy} (hvalid : fixed.validate = .ok ()) {e : Engine}
    {clock : TimePoint} {past : List EvacuationRequest} (h : e.Spacing fixed clock past)
    {operations : List Operation}
    (hfixed : Always Engine.perform (KeepsPolicy fixed) e operations)
    (hgrants : Always Engine.perform GrantsSpaced e operations)
    (hordered : operations.Pairwise (fun a b => a.time ≤ b.time))
    (htimes : ∀ op ∈ operations, clock ≤ op.time) :
    (past ++ requested e operations).Pairwise
      (EvacuationRequest.Apart fixed.evacuationRetryInterval) := by
  induction operations generalizing e clock past with
  | nil =>
    rw [requested, List.append_nil]
    exact h.apart
  | cons op rest ih =>
    rw [List.pairwise_cons] at hordered
    have hnext := h.perform hvalid hfixed.1 hgrants.1 (htimes op List.mem_cons_self)
    rw [requested, ← List.append_assoc]
    exact ih hnext hfixed.2 hgrants.2 hordered.2 hordered.1

end Engine

/-- Under a fixed valid policy and at ordered times, if exceptions are granted only when
the drain could ask again anyway: any two requests for an obligation on behalf of a drain
are at least the retry interval apart. -/
theorem retry_spacing {policy : DrainPolicy} (hvalid : policy.validate = .ok ())
    {operations : List Operation}
    (hfixed : Always perform (KeepsPolicy policy) (Engine.init policy) operations)
    (hordered : operations.Pairwise (fun a b => a.time ≤ b.time))
    (hgrants : Always perform GrantsSpaced (Engine.init policy) operations) :
    (requested (Engine.init policy) operations).Pairwise
      (EvacuationRequest.Apart policy.evacuationRetryInterval) := by
  cases operations with
  | nil => exact List.Pairwise.nil
  | cons op rest =>
    have hstart : (Engine.init policy).Spacing policy op.time [] :=
      ⟨within_init policy, List.Pairwise.nil, fun _ hq => by cases hq⟩
    refine hstart.requests hvalid hfixed hgrants hordered (fun op' hop' => ?_)
    rcases List.mem_cons.mp hop' with rfl | hrest
    · exact le_rfl
    · exact (List.pairwise_cons.mp hordered).1 op' hrest

namespace OnePort

/-- The flow over the port is asked for at time 1; an exception is granted and another
pass is made at `now`. -/
def excused (now : TimePoint) : List Operation :=
  (setup 1 ++ [admitFlow 1]).map .call ++ List.replicate 4 (.advance 1) ++
    [.call (.grantException 1 0 second 1 now), .advance now]

end OnePort

open OnePort

theorem retry_spacing_excused :
    (requested (Engine.init {}) (excused (1 + 5 * second))).map (fun q => (q.obligation, q.at_)) =
        [(1, 1), (1, 1 + 5 * second)] ∧
      (requested (Engine.init {}) (excused (1 + 5 * second))).Pairwise
        (EvacuationRequest.Apart (DrainPolicy.evacuationRetryInterval {})) :=
  ⟨by decide +kernel, retry_spacing (by decide) (by decide +kernel) (by decide)
    (by decide +kernel)⟩

/-- An exception at the time of the first request has the second one issued at once. -/
theorem retry_not_spaced :
    DrainPolicy.validate {} = .ok () ∧
      Always perform (KeepsPolicy {}) (Engine.init {}) (excused 1) ∧
      (excused 1).Pairwise (fun a b => a.time ≤ b.time) ∧
      (requested (Engine.init {}) (excused 1)).map (fun q => (q.drain, q.obligation, q.at_)) =
        [(1, 1, 1), (1, 1, 1)] ∧
      DrainPolicy.evacuationRetryInterval {} = 5 * second := by
  decide +kernel

end DrainFabric
