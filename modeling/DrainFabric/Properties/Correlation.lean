import Mathlib.Data.List.Perm.Subperm
import DrainFabric.Engine.Blocking

/-!
# Correlated drains

Under a policy that does not change, a failure domain never hosts more fence holders
than the policy allows, and a set that is serialised has at most one fence holder in
each domain.

Both limits are checked once, when a drain closes admission. They last because nothing
else makes a drain a fence holder (`Fate.fenceHolding`), and because a drain that has
settled, or is being restored, never goes back to waiting (`Fate.through`).

* `World.fenceHolders` — the fence holders of a domain;
* `Engine.closes_cleared` — a drain that becomes one was cleared by `evaluate_start`;
* `Serialised` — of two drains of a set and a domain, the later one holds its fence only
  after the earlier one is through.
-/

namespace DrainFabric

open Lib

variable {w : World} {id : DrainId} {ev : Event} {r : DrainRecord} {e : Engine}

/-- The phases a drain does not leave again. -/
def isThrough (phase : DrainState) : Bool :=
  phase matches .drained | .cancelled | .failed | .restoring

theorem not_fenceHolding_of_through {phase : DrainState} (h : isThrough phase = true) :
    isFenceHoldingState phase = false := by
  cases phase <;> first | rfl | cases h

namespace World

/-- The drains of a failure domain that hold a fence. -/
def fenceHolders (w : World) (domain : DomainId) : List DrainId :=
  (w.drains.toList.filter (fun r => r.target.domain == domain && holdsFence r)).map DrainRecord.id

theorem mem_fenceHolders {domain : DomainId} :
    id ∈ w.fenceHolders domain ↔ ∃ r, w.drain id = some r ∧ r.target.domain = domain ∧
      isFenceHoldingState r.phase = true := by
  have hmem : id ∈ w.fenceHolders domain ↔
      (w.drain id).any (fun r => r.target.domain == domain && holdsFence r) = true :=
    Table.mem_keys_filter
  rw [hmem]
  cases w.drain id with
  | none => simp
  | some r => simp [holdsFence_eq]

theorem nodup_fenceHolders (w : World) (domain : DomainId) : (w.fenceHolders domain).Nodup :=
  w.drains.nodup_keys_filter _

theorem Path.not_through {source next : DrainState} (h : Path source next) :
    isThrough source = false := by
  cases h with
  | forward hf => cases hf <;> rfl
  | remove => rfl
  | complete => rfl

/-- A drain in a phase it does not leave is still in one after any event. -/
theorem Fate.through {w' : World} {r' : DrainRecord} (h : Fate w id r' w' ev)
    (hr : w.drain id = some r) (hp : isThrough r.phase = true) : isThrough r'.phase = true :=
  h.stays_in (fun _ _ => Path.not_through) rfl rfl rfl hr hp

/-- What the ordering rules found when nothing blocks the start. -/
theorem evaluateStart_ordered {now : TimePoint} (h : w.evaluateStart r now = []) :
    w.activeDrainsInDomain r.target.domain r.id < w.policy.maxConcurrentDrainsPerDomain ∧
      w.unsettledPredecessor r = none := by
  simp only [evaluateStart, List.append_eq_nil_iff] at h
  obtain ⟨⟨⟨⟨-, hlimit⟩, -⟩, hpredecessor⟩, -⟩ := h
  constructor
  · by_contra hfull
    rw [if_pos (not_lt.mp hfull)] at hlimit
    cases hlimit
  · cases hfirst : w.unsettledPredecessor r with
    | none => rfl
    | some member =>
      rw [hfirst] at hpredecessor
      cases hpredecessor

/-- A sorted list has what is smaller than `b` in front of `b`. -/
theorem mem_takeWhile_of_lt {l : List DrainId} {a b : DrainId} (hsorted : l.Pairwise (· < ·))
    (ha : a ∈ l) (hlt : a < b) : a ∈ l.takeWhile (fun member => member != b) := by
  induction l with
  | nil => cases ha
  | cons x rest ih =>
    rw [List.pairwise_cons] at hsorted
    by_cases hx : x = b
    · -- What follows `b` is larger.
      rcases List.mem_cons.mp ha with rfl | ha
      · exact absurd hx (ne_of_lt hlt)
      · exact absurd (hsorted.1 a ha) (not_lt.mpr (hx ▸ hlt.le))
    · rw [List.takeWhile_cons_of_pos (by simpa using hx)]
      rcases List.mem_cons.mp ha with rfl | ha
      · exact List.mem_cons_self
      · exact List.mem_cons_of_mem _ (ih hsorted.2 ha)

/-- Without an unsettled predecessor every earlier drain of the set in the domain has
settled. -/
theorem settled_of_no_predecessor (hfiled : Filed w) {other : DrainRecord} {member : DrainId}
    {set : DrainSet} (hserial : w.policy.serializeSameDomainInSet = true)
    (hr : w.drain id = some r) (hset : w.sets.find? r.set = some set)
    (hnone : w.unsettledPredecessor r = none) (hother : w.drain member = some other)
    (hsame : other.set = r.set) (hlt : member < id)
    (hdomain : other.target.domain = r.target.domain) : isSettled other.state = true := by
  obtain rfl := id_of_drain hr
  have hpositive : r.set ≠ 0 := Nat.pos_iff_ne_zero.mp (hfiled.set r.set set hset).1
  rw [unsettledPredecessor, if_pos ⟨hpositive, hserial⟩, hset] at hnone
  have hmember : member ∈ set.members :=
    (hfiled.members r.set set hset member).mpr ⟨other, hother, hsame⟩
  have hearlier := mem_takeWhile_of_lt (hfiled.ordered r.set set hset) hmember hlt
  have hunmet := List.find?_eq_none.mp hnone member hearlier
  simpa [hother, hdomain] using hunmet

/-- Of two drains of a set in one domain the later holds its fence only when the earlier
is through. -/
def Serialised (w : World) : Prop :=
  ∀ id r id' r' set, w.drain id = some r → w.drain id' = some r' → id < id' →
    r.set = r'.set → w.sets.find? r'.set = some set → r.target.domain = r'.target.domain →
    isFenceHoldingState r'.phase = true → isThrough r.phase = true

end World

namespace Engine

open World

/-- A validating drain whose turn makes it a fence holder was cleared to start. -/
theorem closes_cleared {now : TimePoint} {r' : DrainRecord} (hr : e.drain id = some r)
    (hp : r.phase = .validating) (hr' : (e.turn id now).1.drain id = some r')
    (hholds : isFenceHoldingState r'.phase = true) : e.evaluateStart r now = [] := by
  obtain rfl := id_of_drain hr
  have hunsettled : isSettled r.state = false := by
    cases hs : r.state <;> simp [DrainRecord.phase, hs, isSettled] at hp ⊢
  -- A record that was only held is still validating.
  have hmoved : ∀ q : DrainRecord, q.phase = r.phase → (e.turn r.id now).1.drain r.id ≠ some q := by
    intro q hphase hq
    rw [hr'] at hq
    rw [Option.some.inj hq, hphase, hp] at hholds
    cases hholds
  rw [turn_of_drain hr hunsettled] at hmoved
  by_cases hb : r.state = .blocked
  · obtain ⟨r₁, evidence, held, hworld, hresumed⟩ := resumeBlocked_held e now hr hb
    simp only [stepDrain, if_pos hb] at hmoved
    rcases hres : e.resumeBlocked r now with ⟨e₁, _ | resumed⟩
    · rw [hres] at hworld hmoved
      refine absurd ?_ (hmoved r₁ held.hold.phase)
      rw [hworld, drain_withDrain, if_pos held.hold.id]
    · rw [hres] at hworld hmoved hresumed
      obtain rfl := hresumed resumed rfl
      have hleft : resumed.state ≠ .blocked := by
        intro hblocked
        refine hmoved resumed held.hold.phase ?_
        simp only [stepActive, hblocked]
        rw [hworld, drain_withDrain, if_pos held.hold.id]
      have hclear := (resumeBlocked_some hr hb hres hleft).1
      rwa [revalidationLedger_of_ne (by rw [hp]; decide), hp] at hclear
  · have hstate : r.state = .validating := (DrainRecord.phase_of_not_blocked hb).symm.trans hp
    have hstep : e.stepDrain r now = (e.stepValidating r now, []) := by
      rw [stepDrain, if_neg hb]
      simp only [stepActive, hstate]
    by_contra hne
    have hblocks : e.stepValidating r now =
        e.enterBlocked r (e.evaluateStart r now) now "validation-blocked" :=
      if_pos (fun h => hne (List.isEmpty_iff.mp h))
    rw [hstep, hblocks] at hmoved
    have hold := r.hold_barred
      ((Blocker.normalize (e.evaluateStart r now)).take e.policy.maxBlockersPerDrain) now
      "validation-blocked"
    refine hmoved _ hold.phase ?_
    rw [enterBlocked_toWorld, drain_withDrain, if_pos hold.id]

/-- The policy in force is `p`, before and after the event. -/
def FixedPolicy (p : DrainPolicy) (e : Engine) (ev : Event) : Prop :=
  e.policy = p ∧ (e.fire ev).policy = p

/-- The fence holders of a domain after an event: those of before, and at most one drain
more, which was cleared to start. -/
theorem fenceHolders_fire (e : Engine) (ev : Event) (domain : DomainId) :
    (∀ id ∈ (e.fire ev).fenceHolders domain, id ∈ e.fenceHolders domain) ∨
      ∃ id now r, ev = .turn id now ∧ e.drain id = some r ∧ r.target.domain = domain ∧
        e.evaluateStart r now = [] ∧
        ∀ other ∈ (e.fire ev).fenceHolders domain, other ≠ id → other ∈ e.fenceHolders domain := by
  have hfate : ∀ id ∈ (e.fire ev).fenceHolders domain, id ∈ e.fenceHolders domain ∨
      ∃ now r, ev = .turn id now ∧ e.drain id = some r ∧ r.target.domain = domain ∧
        e.evaluateStart r now = [] := by
    intro id hid
    obtain ⟨r', hr', hdomain, hholds⟩ := mem_fenceHolders.mp hid
    have fate := (fire_drainStep e ev).fate hr'
    obtain ⟨r, hr, hbefore⟩ := fate.fenceHolding hholds
    have hsame : r.target.domain = domain := by rw [← hdomain, fate.target hr]
    rcases hbefore with hbefore | ⟨hval, ⟨now, rfl⟩, -⟩
    · exact Or.inl (mem_fenceHolders.mpr ⟨r, hr, hsame, hbefore⟩)
    · exact Or.inr ⟨now, r, rfl, hr, hsame, closes_cleared hr hval hr' hholds⟩
  by_cases hnew : ∃ id ∈ (e.fire ev).fenceHolders domain, id ∉ e.fenceHolders domain
  · obtain ⟨id, hid, hnot⟩ := hnew
    obtain ⟨now, r, rfl, hr, hdomain, hclear⟩ := (hfate id hid).resolve_left hnot
    refine Or.inr ⟨id, now, r, rfl, hr, hdomain, hclear, fun other hother hne => ?_⟩
    rcases hfate other hother with hbefore | ⟨now', -, hev, -⟩
    · exact hbefore
    · cases hev
      exact absurd rfl hne
  · refine Or.inl (fun id hid => ?_)
    by_contra hnot
    exact hnew ⟨id, hid, hnot⟩

/-- The domain limit is kept by every event that keeps the policy. -/
theorem limit_fire {p : DrainPolicy} (hpolicy : e.policy = p) (domain : DomainId)
    (h : (e.fenceHolders domain).length ≤ p.maxConcurrentDrainsPerDomain) :
    ((e.fire ev).fenceHolders domain).length ≤ p.maxConcurrentDrainsPerDomain := by
  have hnodup := (e.fire ev).nodup_fenceHolders domain
  rcases fenceHolders_fire e ev domain with hsub | ⟨id, now, r, -, hr, hdomain, hclear, hsub⟩
  · exact (hnodup.subperm hsub).length_le.trans h
  · -- The new holder is not counted by the limit it was checked against.
    obtain rfl := id_of_drain hr
    have hlimit := (evaluateStart_ordered hclear).1
    have hactive : (e.fire ev).fenceHolders domain ⊆
        r.id :: (e.drains.toList.filter (fun q =>
          q.id != r.id && q.target.domain == r.target.domain && holdsFence q)).map
            DrainRecord.id := by
      intro other hother
      by_cases hne : other = r.id
      · exact hne ▸ List.mem_cons_self
      · refine List.mem_cons_of_mem _ (Table.mem_keys_filter.mpr ?_)
        obtain ⟨q, hq, hqdomain, hqholds⟩ := mem_fenceHolders.mp (hsub other hother hne)
        have hid := id_of_drain hq
        rw [World.drain] at hq
        simp [hq, hid, hne, hqdomain, hdomain, holdsFence_eq, hqholds]
    have hlength := (hnodup.subperm hactive).length_le
    rw [List.length_cons, List.length_map] at hlength
    rw [← hpolicy]
    exact hlength.trans hlimit

theorem isThrough_of_settled (h : isSettled r.state = true) : isThrough r.phase = true := by
  rw [phase_of_settled h]
  cases hs : r.state <;> rw [hs] at h <;> first | rfl | cases h

/-- So is the order of the drains of a set. -/
theorem serialised_fire {p : DrainPolicy} (hpolicy : e.policy = p)
    (hserial : p.serializeSameDomainInSet = true) (hfiled : Filed e.toWorld)
    (h : Serialised e.toWorld) : Serialised (e.fire ev).toWorld := by
  intro id r₁ id' r₁' set₁ hr₁ hr₁' hlt hset hfound hdomain hholds
  have hstep := fire_drainStep e ev
  have hext := fire_extends e ev
  have fate := hstep.fate hr₁
  have fate' := hstep.fate hr₁'
  obtain ⟨r', hr', hbefore⟩ := fate'.fenceHolding hholds
  -- The set and both drains were there before the event.
  have hsame' : r₁'.set = r'.set := by
    obtain ⟨q, hq, hqset, -⟩ := hext.drain id' r' hr'
    rwa [Option.some.inj (hr₁'.symm.trans hq)]
  obtain ⟨set, hold, hmembers⟩ : ∃ set, e.sets.find? r'.set = some set ∧
      set.members = set₁.members := by
    rw [hsame'] at hfound
    exact (hext.set r'.set set₁ hfound).resolve_right
      (not_lt.mpr (hfiled.belongs id' r' hr'))
  obtain ⟨r, hr, hrset⟩ : ∃ r, e.drain id = some r ∧ r.set = r'.set := by
    rw [← hfiled.members r'.set set hold, hmembers]
    rw [hsame'] at hfound hset
    exact ((filed_fire e ev hfiled).members r'.set set₁ hfound id).mpr ⟨r₁, hr₁, hset⟩
  have hrdomain : r.target.domain = r'.target.domain := by
    rw [← fate.target hr, ← fate'.target hr', hdomain]
  refine fate.through hr ?_
  rcases hbefore with hbefore | ⟨hval, ⟨now, rfl⟩, -⟩
  · exact h id r id' r' set hr hr' hlt hrset hold hrdomain hbefore
  · have hclear := closes_cleared hr' hval hr₁' hholds
    exact isThrough_of_settled (settled_of_no_predecessor hfiled (hpolicy ▸ hserial) hr' hold
      (evaluateStart_ordered hclear).2 hr hrset hlt hrdomain)

end Engine

open Engine World

/-- Under a policy that stays `p`, every failure domain has at most as many fence holders
as `p` allows; and if `p` serialises sets, no set has two in one domain. -/
theorem correlated_limits {p : DrainPolicy} {e : Engine} (he : Reachable (FixedPolicy p) e) :
    (∀ domain, (e.fenceHolders domain).length ≤ p.maxConcurrentDrainsPerDomain) ∧
    (p.serializeSameDomainInSet = true → ∀ id set, e.sets.find? id = some set →
      ∀ m ∈ set.members, ∀ m' ∈ set.members, ∀ r r', e.drain m = some r → e.drain m' = some r' →
        holdsFence r = true → holdsFence r' = true → r.target.domain = r'.target.domain →
        m = m') := by
  constructor
  · intro domain
    exact he.invariant (P := fun e : Engine =>
        (e.fenceHolders domain).length ≤ p.maxConcurrentDrainsPerDomain)
      (fun policy => Nat.zero_le _) (fun e ev h hev => limit_fire hev.1 domain h)
  · intro hserial id set hset m hm m' hm' r r' hr hr' hholds hholds' hdomain
    obtain ⟨hfiled, hordered⟩ := he.invariant
      (P := fun e : Engine => Filed e.toWorld ∧ Serialised e.toWorld)
      (fun policy => ⟨filed_init policy, fun _ _ _ _ _ h => by simp at h⟩)
      (fun e ev h hev => ⟨filed_fire e ev h.1, serialised_fire hev.1 hserial h.1 h.2⟩)
    have hin : ∀ {m r}, m ∈ set.members → e.drain m = some r → r.set = id := by
      intro m r hm hr
      obtain ⟨q, hq, hqset⟩ := (hfiled.members id set hset m).mp hm
      rwa [Option.some.inj (hr.symm.trans hq)]
    rw [holdsFence_eq] at hholds hholds'
    -- The earlier of two would be through, and then it holds nothing.
    have hfirst : ∀ {m m' r r'}, m ∈ set.members → m' ∈ set.members → e.drain m = some r →
        e.drain m' = some r' → isFenceHoldingState r.phase = true →
        isFenceHoldingState r'.phase = true → r.target.domain = r'.target.domain → ¬ m < m' := by
      intro m m' r r' hm hm' hr hr' hholds hholds' hdomain hlt
      have hthrough := hordered m r m' r' set hr hr' hlt ((hin hm hr).trans (hin hm' hr').symm)
        ((hin hm' hr').symm ▸ hset) hdomain hholds'
      rw [not_fenceHolding_of_through hthrough] at hholds
      cases hholds
    exact le_antisymm (not_lt.mp (hfirst hm' hm hr' hr hholds' hholds hdomain.symm))
      (not_lt.mp (hfirst hm hm' hr hr' hholds hholds' hdomain))

instance (p : DrainPolicy) (e : Engine) (ev : Event) : Decidable (FixedPolicy p e ev) :=
  decidable_of_iff' _ (and_congr DrainPolicy.eq_iff DrainPolicy.eq_iff)

namespace OnePort

def neighbour : DrainTarget := { kind := .port, id := "p2", domain := "d1" }

/-- The port is asked to be drained together with another one of its domain. -/
def withNeighbour : List Operation :=
  [.call (.installIncarnation 1 1), .call (.issueAuthority "" 0 1),
    .call (.addResource { target := port, capacity := 10 } 1),
    .call (.addResource { target := neighbour, capacity := 10 } 1),
    .call (.requestDrainSet { targets := [port, neighbour], authority := 1 } 1)]

/-- A domain may host two drains, but the drains of a set go one after the other. -/
def serialised : DrainPolicy := { maxConcurrentDrainsPerDomain := 2 }

/-- The first of the two closes admission, and the engine is restarted. -/
def restartedClosed : Engine :=
  run Engine.perform (Engine.init serialised)
    (withNeighbour ++ [.advance 1, .advance 1, .restart 1 1, .advance 1])

end OnePort

theorem correlated_limits_restarted :
    (OnePort.restartedClosed.fenceHolders "d1").length ≤ 2 ∧
      OnePort.restartedClosed.drains.toList.map (fun r => (r.phase, holdsFence r)) =
        [(.quiescing, true), (.validating, false)] := by
  have hreach : Reachable (FixedPolicy OnePort.serialised) OnePort.restartedClosed :=
    reachable_run (.init OnePort.serialised) (by decide +kernel)
  exact ⟨(correlated_limits hreach).1 "d1", by decide +kernel⟩

end DrainFabric
