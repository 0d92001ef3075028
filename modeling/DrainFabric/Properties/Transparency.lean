import DrainFabric.Engine.Blocking
import DrainFabric.Lib.Trace

/-!
# Blocked is transparent

A blocked drain keeps the state it was blocked in as its phase, and the only unsettled
state it is resumed to is that one. So whoever looks at the states of a drain without
seeing `Blocked` sees a path of the lifecycle, whatever blocks the drain in between:
passes, operators or restarts.

A turn may resume a drain and move it on, so the states of a drain are those at the end
of every event and, in its own turn, the one it was resumed to.

* `stops`, `states` — the states of a drain along a run;
* `Hop` — how a record gets from one stop to the next;
* `Tracked` — what the states so far say about the record;
* `hops_fire` — every event is one hop, or two of which the first keeps the phase.
-/

namespace DrainFabric

open Lib World Engine

variable {now : TimePoint}

/-! ### The states of a drain -/

namespace Engine

/-- The events an operation consists of. -/
def events (e : Engine) : Operation → List Event
  | .call c => [.call c]
  | .advance now => e.passTurns now
  | .restart prev now => [.restart prev now]

theorem perform_eq_run (e : Engine) (op : Operation) : e.perform op = run fire e (e.events op) := by
  cases op with
  | call c => rfl
  | advance now => exact advance_eq_run e now
  | restart prev now => rfl

def stateOf (e : Engine) (id : DrainId) : Option DrainState :=
  (e.drain id).map DrainRecord.state

/-- The state a blocked drain has after the first half of its own turn. -/
def resumed (e : Engine) (id : DrainId) : Event → Option DrainState
  | .turn other now =>
    match e.drain id with
    | some r =>
      if other = id ∧ r.state = .blocked then (e.resumeBlocked r now).1.stateOf id else none
    | none => none
  | _ => none

/-- The states an event takes the drain through. -/
def stops (id : DrainId) (e : Engine) (ev : Event) : List DrainState :=
  (e.resumed id ev).toList ++ ((e.fire ev).stateOf id).toList

/-- The states of the drain along a run of operations. -/
def states (id : DrainId) : Engine → List Operation → List DrainState :=
  trace perform (fun e op => trace fire (stops id) e (e.events op))

end Engine

/-- The path of the drain up to its cancellation or its restoration, `Blocked` erased. -/
def forwardPath (states : List DrainState) : List DrainState :=
  erase .blocked (states.takeWhile (fun s => s ≠ .cancelled ∧ s ≠ .restoring))

/-- The steps of the path. -/
inductive Follows : DrainState → DrainState → Prop
  | validate : Follows .requested .validating
  | close : Follows .validating .admissionClosed
  | evacuate : Follows .admissionClosed .evacuating
  | skip : Follows .admissionClosed .quiescing
  | quiesce : Follows .evacuating .quiescing
  | reappear : Follows .quiescing .evacuating
  | remove : Follows .quiescing .verifying
  | complete : Follows .verifying .drained

theorem Follows.ne_blocked {source next : DrainState} (h : Follows source next) :
    next ≠ .blocked := by
  cases h <;> decide

theorem World.Forward.follows {source next : DrainState} (h : Forward source next) :
    Follows source next := by
  cases h
  · exact .validate
  · exact .evacuate
  · exact .skip
  · exact .quiesce
  · exact .reappear

/-! ### Hops -/

/-- How a record gets to its next stop: it stands where it stood, blocked or not; it takes
a step of the path; or it leaves the path. -/
inductive Hop (r r' : DrainRecord) : Prop
  | stays : r'.phase = r.phase → Hop r r'
  | moves : r.state ≠ .blocked → Follows r.state r'.state → Hop r r'
  | cancels : r'.state = .cancelled → Hop r r'
  | reopens : r.state ≠ .blocked → r'.state = .restoring → Hop r r'

/-- What the states so far say about the record. -/
structure Tracked (states : List DrainState) (r : DrainRecord) : Prop where
  last : states.getLast? = some r.state
  phase : (erase .blocked states).getLast? = some r.phase
  returns : Returns .blocked (fun s => isSettled s = false) states
  starts : (forwardPath states).head? = some .requested
  follows : (forwardPath states).IsChain Follows

/-- A drain is born in `Requested`. -/
theorem tracked_born {r : DrainRecord} (hs : r.state = .requested) : Tracked [r.state] r := by
  have hphase : r.phase = .requested := DrainRecord.phase_of_state hs (by decide)
  rw [hs]
  refine ⟨by rw [hs]; rfl, by rw [hphase]; rfl, ?_, rfl, List.isChain_singleton _⟩
  exact returns_concat (returns_nil _) (fun h => by cases h)

section

variable {states : List DrainState} {r r' : DrainRecord}

/-- As long as the drain is on the path, the path is all that is seen of it. -/
theorem forwardPath_concat (states : List DrainState) (s : DrainState) :
    forwardPath (states ++ [s]) = forwardPath states ∨
      (s ≠ .cancelled ∧ s ≠ .restoring) ∧ forwardPath states = erase .blocked states ∧
        forwardPath (states ++ [s]) = visit .blocked (erase .blocked states) s := by
  unfold forwardPath
  rw [List.takeWhile_append]
  split_ifs with hall
  · have hstates : states.takeWhile (fun s => s ≠ .cancelled ∧ s ≠ .restoring) = states :=
      (List.takeWhile_prefix _).eq_of_length hall
    by_cases hs : s ≠ .cancelled ∧ s ≠ .restoring
    · refine Or.inr ⟨hs, by rw [hstates], ?_⟩
      rw [List.takeWhile_cons_of_pos (by simpa using hs), List.takeWhile_nil, erase_concat]
    · refine Or.inl ?_
      rw [List.takeWhile_cons_of_neg (by simpa using hs), List.append_nil, hstates]
  · exact Or.inl rfl

/-- Where the next stop is seen. -/
theorem Hop.seen (h : Hop r r') (hb : r'.state ≠ .blocked)
    (hon : r'.state ≠ .cancelled ∧ r'.state ≠ .restoring) :
    r'.state = r.phase ∨ Follows r.phase r'.state := by
  cases h with
  | stays hphase => exact Or.inl ((DrainRecord.phase_of_not_blocked hb).symm.trans hphase)
  | moves hs hfollows =>
    rw [DrainRecord.phase_of_not_blocked hs]
    exact Or.inr hfollows
  | cancels hs' => exact absurd hs' hon.1
  | reopens _ hs' => exact absurd hs' hon.2

/-- A hop out of `Blocked`. -/
theorem Hop.returns (h : Hop r r') (hs : r.state = .blocked) (hb : r'.state ≠ .blocked)
    (hunsettled : isSettled r'.state = false) : r'.state = r.phase := by
  cases h with
  | stays hphase => exact (DrainRecord.phase_of_not_blocked hb).symm.trans hphase
  | moves hne => exact absurd hs hne
  | cancels hs' =>
    rw [hs'] at hunsettled
    cases hunsettled
  | reopens hne => exact absurd hs hne

/-- A hop into `Blocked`. -/
theorem Hop.blocks (h : Hop r r') (hb : r'.state = .blocked) : r'.phase = r.phase := by
  cases h with
  | stays hphase => exact hphase
  | moves _ hfollows => exact absurd hb hfollows.ne_blocked
  | cancels hs' => cases hb.symm.trans hs'
  | reopens _ hs' => cases hb.symm.trans hs'

theorem Tracked.hop (h : Tracked states r) (hhop : Hop r r') :
    Tracked (states ++ [r'.state]) r' := by
  have hphase : (erase .blocked (states ++ [r'.state])).getLast? = some r'.phase := by
    rw [erase_concat]
    by_cases hb : r'.state = .blocked
    · rw [visit, if_pos (Or.inl hb), h.phase, hhop.blocks hb]
    · rw [getLast?_visit hb, DrainRecord.phase_of_not_blocked hb]
  have hreturns : Returns .blocked (fun s => isSettled s = false) (states ++ [r'.state]) := by
    refine returns_concat h.returns (fun hlast hb hunsettled => ?_)
    have hs : r.state = .blocked := Option.some.inj (h.last.symm.trans hlast)
    rw [h.phase, hhop.returns hs hb hunsettled]
  rcases forwardPath_concat states r'.state with hsame | ⟨hon, hpath, hgrown⟩
  · refine ⟨List.getLast?_concat, hphase, hreturns, ?_, ?_⟩ <;> rw [hsame]
    · exact h.starts
    · exact h.follows
  · have hstarts := h.starts
    have hfollows := h.follows
    rw [hpath] at hstarts hfollows
    refine ⟨List.getLast?_concat, hphase, hreturns, ?_, ?_⟩ <;> rw [hgrown, visit] <;>
      split_ifs with hunseen
    · exact hstarts
    · rw [List.head?_append, hstarts]
      rfl
    · exact hfollows
    · obtain ⟨hb, hlast⟩ := not_or.mp hunseen
      refine List.isChain_append.mpr ⟨hfollows, List.isChain_singleton _, ?_⟩
      intro s hs next hnext
      rw [h.phase] at hs hlast
      obtain rfl := Option.mem_some_iff.mp hs
      obtain rfl := Option.mem_some_iff.mp hnext
      exact (hhop.seen hb hon).resolve_left (fun heq => hlast (heq ▸ rfl))

/-- A hop takes at most one step on the path, and none if the phase stays. -/
theorem length_forwardPath_hop_le (states : List DrainState) (s : DrainState) :
    (forwardPath (states ++ [s])).length ≤ (forwardPath states).length + 1 := by
  rcases forwardPath_concat states s with hsame | ⟨-, hpath, hgrown⟩
  · rw [hsame]
    exact Nat.le_succ _
  · rw [hgrown, hpath]
    exact length_visit_le _ _

theorem Tracked.forwardPath_stays (h : Tracked states r) (hphase : r'.phase = r.phase) :
    forwardPath (states ++ [r'.state]) = forwardPath states := by
  rcases forwardPath_concat states r'.state with hsame | ⟨-, hpath, hgrown⟩
  · exact hsame
  · rw [hgrown, hpath, visit]
    refine if_pos ?_
    by_cases hb : r'.state = .blocked
    · exact Or.inl hb
    · rw [h.phase, ← hphase, DrainRecord.phase_of_not_blocked hb]
      exact Or.inr rfl

end

/-! ### Events -/

/-- An act of the drain is a hop. -/
theorem hop_of_act {r : DrainRecord} {w w' : World} {requests : List EvacuationRequest}
    (hr : w.drain r.id = some r) (h : Act now r w w' requests) :
    ∃ r', w'.drain r.id = some r' ∧ Hop r r' := by
  have hstored : ∀ {v : World} {r' : DrainRecord}, r'.id = r.id → Hop r r' →
      ∃ q, (v.withDrain r').drain r.id = some q ∧ Hop r q := by
    intro v r' hid hhop
    refine ⟨r', ?_, hhop⟩
    rw [drain_withDrain]
    exact if_pos hid
  cases h with
  | held held => exact hstored held.hold.id (.stays held.hold.phase)
  | requested _ _ hold => exact hstored hold.id (.stays hold.phase)
  | moved detail hforward =>
    exact hstored rfl (.moves hforward.ne_blocked.1 hforward.follows)
  | closed hs _ _ hr' =>
    rcases hr' with ⟨detail, rfl⟩ | ⟨-, rfl⟩
    · refine hstored rfl (.moves (by rw [hs]; decide) ?_)
      rw [hs]
      exact .close
    · exact hstored rfl (.stays rfl)
  | closeFailed _ _ _ hold => exact hstored hold.id (.stays hold.phase)
  | retired => exact ⟨r, hr, .stays rfl⟩
  | removed hs _ _ _ _ _ _ _ hr' =>
    rcases hr' with hold | ⟨detail, rfl⟩
    · exact hstored hold.id (.stays hold.phase)
    · refine hstored rfl (.moves (by rw [hs]; decide) ?_)
      rw [hs]
      exact .remove
  | observed hs _ _ _ _ hr' =>
    rcases hr' with hold | ⟨detail, rfl⟩
    · exact hstored hold.id (.stays hold.phase)
    · refine hstored rfl (.moves (by rw [hs]; decide) ?_)
      rw [hs]
      exact .remove
  | completed detail hs =>
    refine hstored rfl (.moves (by rw [hs]; decide) ?_)
    rw [hs]
    exact .complete
  | settled detail hs => exact hstored rfl (.cancels rfl)
  | settleFailed _ _ _ hold => exact hstored hold.id (.stays hold.phase)

/-- What an event other than a turn makes of a drain. -/
theorem hop_of_fate {w w' : World} {ev : Event} {id : DrainId} {r r' : DrainRecord}
    (h : Fate w id r' w' ev) (hr : w.drain id = some r) (hev : ∀ now, ev ≠ .turn id now) :
    Hop r r' := by
  have hsame : ∀ {q : DrainRecord}, w.drain id = some q → q = r := fun hq =>
    Option.some.inj (hq.symm.trans hr)
  cases h with
  | born hnone => cases hnone.symm.trans hr
  | keeps hq kept => exact .stays (hsame hq ▸ kept.phase)
  | moves | closes | retries | settles => exact absurd rfl (hev _)
  | cancels _ _ _ _ hs' => exact .cancels hs'
  | reopens hq _ hsettled _ hs' =>
    refine .reopens (fun hb => ?_) hs'
    rw [hsame hq, hb] at hsettled
    cases hsettled
  | refused hq => exact .stays (hsame hq ▸ rfl)

section

variable {e : Engine} {id : DrainId} {r : DrainRecord}

theorem stateOf_of_drain (hr : e.drain id = some r) : e.stateOf id = some r.state := by
  rw [stateOf, hr]
  rfl

/-- An event at whose end the drain has the record `r'`, and which does not resume it. -/
theorem stops_of_drain {ev : Event} {r' : DrainRecord} (hnone : e.resumed id ev = none)
    (hr' : (e.fire ev).drain id = some r') : e.stops id ev = [r'.state] := by
  rw [stops, hnone, stateOf_of_drain hr']
  rfl

/-- The turn of another drain. -/
theorem stops_others {other : DrainId} (hne : other ≠ id) (hr : e.drain id = some r) :
    (e.fire (.turn other now)).drain id = some r ∧ e.stops id (.turn other now) = [r.state] := by
  have hsame : (e.fire (.turn other now)).drain id = some r :=
    ((turn_frame e other now).others id (Ne.symm hne)).trans hr
  refine ⟨hsame, stops_of_drain ?_ hsame⟩
  simp only [resumed, hr, if_neg (fun h : other = id ∧ _ => hne h.1)]

/-- The drain's own turn: one hop, or one that keeps the phase and another. -/
theorem stops_turn (hr : e.drain id = some r) (now : TimePoint) :
    ∃ r₁ r', (e.fire (.turn id now)).drain id = some r' ∧ r₁.phase = r.phase ∧ Hop r₁ r' ∧
      (r₁ = r ∧ e.stops id (.turn id now) = [r'.state] ∨
        e.stops id (.turn id now) = [r₁.state, r'.state]) := by
  obtain rfl := id_of_drain hr
  by_cases hb : r.state = .blocked
  · -- A blocked drain is held first, and acts if it was resumed.
    obtain ⟨r₁, evidence, held, hworld, hres⟩ := resumeBlocked_held e now hr hb
    have hr₁ : (e.resumeBlocked r now).1.drain r.id = some r₁ := by
      rw [hworld, drain_withDrain]
      exact if_pos held.hold.id
    have hresumed : e.resumed r.id (.turn r.id now) = some r₁.state := by
      simp only [resumed, hr, hb, and_self, if_true]
      exact stateOf_of_drain hr₁
    obtain ⟨r', hr', hhop⟩ : ∃ r', (e.fire (.turn r.id now)).drain r.id = some r' ∧ Hop r₁ r' := by
      have hturn : (e.fire (.turn r.id now)) = (e.stepDrain r now).1 := by
        show (e.turn r.id now).1 = _
        rw [turn_of_drain hr (by rw [hb]; rfl)]
      rw [hturn, stepDrain, if_pos hb]
      rcases hcases : e.resumeBlocked r now with ⟨e₁, _ | q⟩
      · rw [hcases] at hr₁
        exact ⟨r₁, hr₁, .stays rfl⟩
      · rw [hcases] at hr₁ hres
        obtain rfl := hres q rfl
        have hdrain : e₁.drain q.id = some q := held.hold.id.symm ▸ hr₁
        obtain ⟨r', hr', hhop⟩ := hop_of_act hdrain (act_stepActive now hdrain)
        exact ⟨r', held.hold.id ▸ hr', hhop⟩
    refine ⟨r₁, r', hr', held.hold.phase, hhop, Or.inr ?_⟩
    rw [stops, hresumed, stateOf_of_drain hr']
    rfl
  · have hnone : e.resumed r.id (.turn r.id now) = none := by
      simp only [resumed, hr, hb, and_false, if_false]
    obtain ⟨r', hr', hhop⟩ : ∃ r', (e.fire (.turn r.id now)).drain r.id = some r' ∧ Hop r r' := by
      show ∃ r', (e.turn r.id now).1.drain r.id = some r' ∧ Hop r r'
      by_cases hset : isSettled r.state = true
      · refine ⟨r, ?_, .stays rfl⟩
        simp only [turn, hr, if_pos hset]
      · rw [turn_of_drain hr (Bool.eq_false_iff.mpr hset), stepDrain, if_neg hb]
        exact hop_of_act hr (act_stepActive now hr)
    exact ⟨r, r', hr', rfl, hhop, Or.inl ⟨rfl, stops_of_drain hnone hr'⟩⟩

/-- Every event: the drain hops once or twice, the first time without leaving its phase. -/
theorem hops_fire (hr : e.drain id = some r) (ev : Event) :
    ∃ r₁ r', (e.fire ev).drain id = some r' ∧ r₁.phase = r.phase ∧ Hop r₁ r' ∧
      (r₁ = r ∧ e.stops id ev = [r'.state] ∨ e.stops id ev = [r₁.state, r'.state]) := by
  by_cases hown : ∃ now, ev = .turn id now
  · obtain ⟨now, rfl⟩ := hown
    exact stops_turn hr now
  · have hev : ∀ now, ev ≠ .turn id now := fun now heq => hown ⟨now, heq⟩
    obtain ⟨r', hr'⟩ := (fire_drainStep e ev).persists hr
    have hnone : e.resumed id ev = none := by
      cases ev with
      | turn other now =>
        have hne : other ≠ id := fun heq => hev now (by rw [heq])
        simp only [resumed, hr, if_neg (fun h : other = id ∧ _ => hne h.1)]
      | _ => rfl
    exact ⟨r, r', hr', rfl, hop_of_fate ((fire_drainStep e ev).fate hr') hr hev,
      Or.inl ⟨rfl, stops_of_drain hnone hr'⟩⟩

end

/-! ### Runs -/

/-- The states so far are those of the drain, and none before it is born. -/
def Follower (id : DrainId) (states : List DrainState) (e : Engine) : Prop :=
  (e.drain id = none ∧ states = []) ∨ ∃ r, e.drain id = some r ∧ Tracked states r

theorem follower_fire {id : DrainId} {states : List DrainState} {e : Engine}
    (h : Follower id states e) (ev : Event) :
    Follower id (states ++ e.stops id ev) (e.fire ev) := by
  rcases h with ⟨hnone, rfl⟩ | ⟨r, hr, htracked⟩
  · have hresumed : e.resumed id ev = none := by
      cases ev with
      | turn other now => simp only [resumed, hnone]
      | _ => rfl
    rw [List.nil_append]
    cases hr' : (e.fire ev).drain id with
    | none =>
      refine Or.inl ⟨hr', ?_⟩
      rw [stops, hresumed, stateOf, hr']
      rfl
    | some r' =>
      refine Or.inr ⟨r', hr', ?_⟩
      rw [stops_of_drain hresumed hr']
      obtain ⟨-, -, -, -, hs⟩ := ((fire_drainStep e ev).fate hr').of_none hnone
      exact tracked_born hs
  · obtain ⟨r₁, r', hr', hphase, hhop, ⟨rfl, hstops⟩ | hstops⟩ := hops_fire hr ev
    · rw [hstops]
      exact Or.inr ⟨r', hr', htracked.hop hhop⟩
    · rw [hstops, List.append_cons]
      exact Or.inr ⟨r', hr', (htracked.hop (.stays hphase)).hop hhop⟩

theorem follower_events {id : DrainId} {states : List DrainState} {e : Engine}
    (h : Follower id states e) (events : List Event) :
    Follower id (states ++ trace fire (stops id) e events) (run fire e events) :=
  trace_invariant (C := fun _ _ => True) (P := Follower id)
    (fun _ _ ev h _ => follower_fire h ev) h (always_of_forall (fun _ _ _ => trivial) e)

theorem follower_run (policy : DrainPolicy) (id : DrainId) (operations : List Operation) :
    Follower id (states id (Engine.init policy) operations)
      (run perform (Engine.init policy) operations) := by
  have hstart : Follower id [] (Engine.init policy) := Or.inl ⟨rfl, rfl⟩
  show Follower id ([] ++ trace perform (fun e op => trace fire (stops id) e (e.events op))
    (Engine.init policy) operations) _
  refine trace_invariant (C := fun _ _ => True) (P := Follower id) (fun l e op h _ => ?_) hstart
    (always_of_forall (fun _ _ _ => trivial) _)
  rw [perform_eq_run]
  exact follower_events h (e.events op)

/-- Turns of other drains take no step on the path. -/
theorem forwardPath_others {id : DrainId} {states : List DrainState} {e : Engine}
    (h : Follower id states e) {turns : List Event}
    (hothers : ∀ ev ∈ turns, ∃ other, other ≠ id ∧ ev = .turn other now) :
    forwardPath (states ++ trace fire (stops id) e turns) = forwardPath states := by
  suffices hkept : Follower id (states ++ trace fire (stops id) e turns) (run fire e turns) ∧
      forwardPath (states ++ trace fire (stops id) e turns) = forwardPath states from hkept.2
  refine trace_invariant (C := fun _ ev => ∃ other, other ≠ id ∧ ev = Event.turn other now)
    (P := fun l e => Follower id l e ∧ forwardPath l = forwardPath states) ?_ ⟨h, rfl⟩
    (always_of_forall (fun ev hev _ => hothers ev hev) e)
  rintro l e ev ⟨hfollower, hpath⟩ ⟨other, hne, rfl⟩
  refine ⟨follower_fire hfollower _, ?_⟩
  rcases hfollower with ⟨hnone, rfl⟩ | ⟨r, hr, htracked⟩
  · have hafter : (e.fire (.turn other now)).drain id = none :=
      ((turn_frame e other now).others id (Ne.symm hne)).trans hnone
    rw [← hpath, stops, stateOf, hafter]
    simp only [resumed, hnone]
    rfl
  · rw [(stops_others hne hr).2, htracked.forwardPath_stays rfl, hpath]

/-- A pass takes at most one step. -/
theorem length_forwardPath_advance {id : DrainId} {states : List DrainState} {e : Engine}
    (h : Follower id states e) (now : TimePoint) :
    (forwardPath (states ++ trace fire (stops id) e (e.passTurns now))).length ≤
      (forwardPath states).length + 1 := by
  by_cases hown : Event.turn id now ∈ e.passTurns now
  · obtain ⟨pre, post, hsplit⟩ := List.append_of_mem hown
    have hothers := passTurns_split hsplit
    rw [hsplit, trace_append, trace, ← List.append_assoc, ← List.append_assoc]
    have hbefore := follower_events h pre
    have hsame := forwardPath_others h (fun ev hev => hothers ev (List.mem_append_left _ hev))
    have hafter := follower_fire hbefore (.turn id now)
    rw [forwardPath_others hafter (fun ev hev => hothers ev (List.mem_append_right _ hev)), ← hsame]
    generalize states ++ trace fire (stops id) e pre = l at hbefore
    generalize run fire e pre = s at hbefore
    rcases hbefore with ⟨hnone, rfl⟩ | ⟨r, hr, htracked⟩
    · have hidle : s.turn id now = (s, []) := by simp only [turn, hnone]
      have hstops : s.stops id (.turn id now) = [] := by
        simp only [stops, resumed, fire, hnone, hidle, stateOf]
        rfl
      rw [hstops]
      exact Nat.le_succ _
    · obtain ⟨r₁, r', -, hphase, -, ⟨rfl, hstops⟩ | hstops⟩ := stops_turn hr now
      · rw [hstops]
        exact length_forwardPath_hop_le l r'.state
      · rw [hstops, List.append_cons, ← htracked.forwardPath_stays hphase]
        exact length_forwardPath_hop_le (l ++ [r₁.state]) r'.state
  · have hothers : ∀ ev ∈ e.passTurns now, ∃ other, other ≠ id ∧ ev = .turn other now := by
      intro ev hev
      obtain ⟨other, -, rfl⟩ := List.mem_map.mp hev
      exact ⟨other, fun heq => hown (heq ▸ hev), rfl⟩
    rw [forwardPath_others h hothers]
    exact Nat.le_succ _

/-- In every run, whatever blocks the drain and whenever the engine restarts: an unsettled
state that follows `Blocked` is the one the drain was blocked in. Without `Blocked` its
states up to its cancellation or restoration are a path from `Requested` along the
lifecycle, and a pass takes at most one step on it. -/
theorem blocked_transparent (policy : DrainPolicy) (operations : List Operation) (id : DrainId) :
    Returns .blocked (fun s => isSettled s = false) (states id (Engine.init policy) operations) ∧
    (states id (Engine.init policy) operations = [] ∨
      (forwardPath (states id (Engine.init policy) operations)).head? = some .requested) ∧
    (forwardPath (states id (Engine.init policy) operations)).IsChain Follows ∧
    ∀ now, (forwardPath (states id (Engine.init policy) (operations ++ [.advance now]))).length ≤
      (forwardPath (states id (Engine.init policy) operations)).length + 1 := by
  have hfollower := follower_run policy id operations
  have hpass : ∀ now,
      (forwardPath (states id (Engine.init policy) (operations ++ [.advance now]))).length ≤
        (forwardPath (states id (Engine.init policy) operations)).length + 1 := by
    intro now
    have hstates : states id (Engine.init policy) (operations ++ [.advance now]) =
        states id (Engine.init policy) operations ++
          trace fire (stops id) (run perform (Engine.init policy) operations)
            ((run perform (Engine.init policy) operations).passTurns now) := by
      rw [states, trace_append, trace, trace, List.append_nil]
      rfl
    rw [hstates]
    exact length_forwardPath_advance hfollower now
  rcases hfollower with ⟨-, hnone⟩ | ⟨r, -, htracked⟩
  · rw [hnone] at hpass ⊢
    exact ⟨returns_nil _, Or.inl rfl, List.isChain_nil, hpass⟩
  · exact ⟨htracked.returns, Or.inr htracked.starts, htracked.follows, hpass⟩

/-- A restart blocks the drain where it is, and the next pass resumes it there. -/
example : states 1 (Engine.init {}) ((OnePort.setup 1 ++ [OnePort.admitFlow 1]).map .call ++
      List.replicate 3 (.advance 1) ++ [.restart 1 1, .advance 1]) =
    [.requested, .requested, .validating, .admissionClosed, .evacuating, .blocked, .evacuating,
      .evacuating] := by
  decide +kernel

end DrainFabric
