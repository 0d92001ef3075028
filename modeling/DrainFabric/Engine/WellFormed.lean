import DrainFabric.Engine.RestartEffect
import DrainFabric.Engine.Writes
import DrainFabric.Ledger

/-!
# Well-formed states

What holds of the tables in every reachable state, because every single write and
every recovery keeps it.

* `Reachable.wellFormed`, `Reachable.records` — the invariant rules, for the state
  and for single drain records;
* `Filed` — drains and sets are numbered below their high-water marks, a set lists
  exactly its drains in the order of their numbers, a blocked drain knows where it
  was blocked, and the ledger is coherent.
-/

namespace DrainFabric

open Lib

variable {P : World → Prop} {C : Engine → Event → Prop} {e recovered : Engine}
  {request : DrainRequest} {now : TimePoint} {targets : List DrainTarget} {r r' : DrainRecord}
  {w w' : World} {id : DrainId} {ev : Event} {prev : IncarnationId} {Q : DrainRecord → Prop}

/-! ### The rules -/

namespace Engine

open World

/-- A restart keeps the world or hands out the one it decodes. -/
theorem restart_rule {prev : IncarnationId} {now : TimePoint} (h : P e.toWorld)
    (hload : ∀ recovered, decodeSnapshot e.policy e.snapshot prev now = .ok recovered →
      P recovered.toWorld) : P (e.fire (.restart prev now)).toWorld := by
  simp only [fire, restore]
  cases hdecode : decodeSnapshot e.policy e.snapshot prev now with
  | error err => exact h
  | ok recovered => exact hload recovered hdecode

/-- What the writes of an event keep and a recovery hands out, the event keeps. -/
theorem fire_rule (e : Engine) (ev : Event) (hwrite : ∀ w w', Write w ev w' → P w → P w')
    (hrecover : ∀ prev now recovered, ev = .restart prev now → Recovery e prev now recovered →
      P recovered.toWorld) (h : P e.toWorld) : P (e.fire ev).toWorld := by
  cases ev with
  | call c => exact (apply_writes e c).invariant hwrite h
  | turn id now => exact (turn_writes e id now).invariant hwrite h
  | restart prev now =>
    exact restart_rule h (fun recovered hdecode =>
      hrecover prev now recovered rfl (decodeSnapshot_eq_ok.mp hdecode))

/-- What every write and every recovery keeps, every event keeps. -/
theorem fire_wellFormed (hwrite : ∀ w ev w', Write w ev w' → P w → P w')
    (hrecover : ∀ e prev now recovered, Recovery e prev now recovered → P e.toWorld →
      P recovered.toWorld) (e : Engine) (ev : Event) (h : P e.toWorld) : P (e.fire ev).toWorld :=
  fire_rule e ev (fun w w' => hwrite w ev w')
    (fun prev now recovered _ hrec => hrecover e prev now recovered hrec h) h

theorem Reachable.wellFormed (hinit : ∀ policy, P (Engine.init policy).toWorld)
    (hwrite : ∀ w ev w', Write w ev w' → P w → P w')
    (hrecover : ∀ e prev now recovered, Recovery e prev now recovered → P e.toWorld →
      P recovered.toWorld) (he : Reachable C e) : P e.toWorld :=
  he.invariant hinit (fun e ev h _ => fire_wellFormed hwrite hrecover e ev h)

end Engine

namespace World

/-! ### Edits -/

/-- No write to a record changes what identifies it. -/
theorem Edit.identity (h : Edit w now r r') :
    r'.id = r.id ∧ r'.set = r.set ∧ r'.target = r.target ∧ r'.authority = r.authority ∧
      r'.node = r.node ∧ r'.reason = r.reason ∧ r'.requestedAt = r.requestedAt := by
  cases h <;> exact ⟨rfl, rfl, rfl, rfl, rfl, rfl, rfl⟩

/-- What a write leaves of the drains: every drain is as it was, or one was edited. -/
theorem drain_withDrain_cases {q : DrainRecord} (hid : r'.id = r.id)
    (h : (w.withDrain r').drain id = some q) :
    (id = r.id ∧ q = r') ∨ (id ≠ r.id ∧ w.drain id = some q) := by
  rw [drain_withDrain, hid] at h
  split_ifs at h with heq
  · exact Or.inl ⟨heq.symm, (Option.some.inj h).symm⟩
  · exact Or.inr ⟨Ne.symm heq, h⟩

/-- What a write can do to the drains. -/
theorem Write.drain_cases (h : Write w ev w') {q : DrainRecord} (hq : w'.drain id = some q) :
    w.drain id = some q ∨ (∃ r, w.drain id = some r ∧ Edit w ev.time r q) ∨
      ∃ c request targets now, ev = .call c ∧ c.request = some request ∧
        (∃ rest, w.Admissible request (targets ++ rest) now) ∧
        q ∈ newDrains request (w.setHighWater + 1) now w.drainHighWater targets ∧ q.id = id := by
  cases h with
  | @record _ r r' hr hedit =>
    rcases drain_withDrain_cases hedit.identity.1 hq with ⟨rfl, rfl⟩ | ⟨-, hold⟩
    · exact Or.inr (Or.inl ⟨r, hr, hedit⟩)
    · exact Or.inl hold
  | @founded c request targets now hc hadm hroom =>
    rcases drain_withDrains_cases hq with hold | ⟨hnew, hid⟩
    · exact Or.inl hold
    · exact Or.inr (Or.inr ⟨c, request, targets, now, rfl, hc, ⟨[], by simpa using hadm⟩, hnew,
        hid⟩)
  | @abandoned c request made rest now hc hadm hroom =>
    rcases drain_withDrains_cases hq with hold | ⟨hnew, hid⟩
    · exact Or.inl hold
    · exact Or.inr (Or.inr ⟨c, request, made, now, rfl, hc, ⟨rest, hadm⟩, hnew, hid⟩)
  | _ => exact Or.inl hq

end World

namespace Engine

open World

theorem Recovery.readable (h : Recovery e prev now recovered) (hr : e.drain id = some r) :
    r.Readable := by
  obtain ⟨-, loaded, hload, hrecover, -⟩ := h.drains
  exact (recoverDrains_eq_ok.mp ⟨loaded, hload, hrecover⟩).1 r (Table.mem_of_find? hr)

theorem Recovery.of_drain (h : Recovery e prev now recovered) (hr' : recovered.drain id = some r') :
    ∃ r, e.drain id = some r ∧ r.Readable ∧ r' = recoveredRecord now r.reloaded := by
  rw [h.drain] at hr'
  obtain ⟨r, hr, rfl⟩ := Option.map_eq_some_iff.mp hr'
  exact ⟨r, hr, h.readable hr, rfl⟩

/-- The sets are recovered as they were, up to the sign of their times. -/
theorem Recovery.sets_eq (h : Recovery e prev now recovered) :
    (∀ set ∈ e.sets.toList, set.Readable) ∧
      recovered.sets = e.sets.mapVals DrainSet.persisted DrainSet.persisted_id :=
  (Table.foldlM_emplace_eq_ok _ (fun _ _ _ => loadSet_eq_ok)).mp h.sets.2.1

/-- The high-water marks of the drains and the sets are at least what they were. -/
theorem Recovery.marks (h : Recovery e prev now recovered) :
    e.drainHighWater ≤ recovered.drainHighWater ∧ e.setHighWater ≤ recovered.setHighWater := by
  have hfold : ∀ (l : List Nat) (start : Nat), start ≤ l.foldl max start := by
    intro l
    induction l with
    | nil => exact fun _ => le_rfl
    | cons a rest ih => exact fun start => (le_max_left start a).trans (ih (max start a))
  obtain ⟨-, loaded, -, -, hmark⟩ := h.drains
  exact ⟨hmark ▸ hfold _ _, h.sets.2.2 ▸ hfold _ _⟩

/-- What every edit and every recovery of a record keeps, every event keeps. -/
theorem records_fire
    (hnew : ∀ request setId reason now id target, Q (newDrain request setId reason now id target))
    (hedit : ∀ w now r r', Edit w now r r' → Q r → Q r')
    (hrecover : ∀ now r, r.Readable → Q r → Q (recoveredRecord now r.reloaded)) (e : Engine)
    (ev : Event) (h : ∀ id r, e.drain id = some r → Q r) :
    ∀ id r, (e.fire ev).drain id = some r → Q r := by
  refine fire_wellFormed (P := fun w => ∀ id r, w.drain id = some r → Q r) ?_ ?_ e ev h
  · intro w ev w' hwrite hw id q hq
    rcases hwrite.drain_cases hq with hold | ⟨r, hr, hed⟩ | ⟨_, _, _, _, -, -, -, hmem, -⟩
    · exact hw id q hold
    · exact hedit w ev.time r q hed (hw id r hr)
    · rw [(mem_newDrains hmem).2.2.2]
      exact hnew _ _ _ _ _ _
  · intro e prev now recovered h hw id q hq
    obtain ⟨r, hr, hreadable, rfl⟩ := h.of_drain hq
    exact hrecover now r hreadable (hw id r hr)

/-! ### The ledger -/

theorem coherent_fire (e : Engine) (ev : Event) (h : e.evidence.Coherent) :
    (e.fire ev).evidence.Coherent := by
  refine fire_wellFormed (P := fun w => w.evidence.Coherent) ?_ ?_ e ev h
  · intro w ev w' hwrite hw
    cases hwrite with
    | policy => exact hw.congr (fun _ _ => rfl) rfl rfl
    | line => exact hw.quarantineAll
    | evidence => exact hw.record _ _ _
    | attestation hattest => exact hw.attest hattest
    | observation => exact hw.record _ _ _
    | _ => exact hw
  · intro e prev now recovered h _
    obtain ⟨loaded, hload, heq⟩ := h.evidence
    rw [heq]
    exact (EvidenceLedger.coherent_load hload).quarantineAll

/-- In every reachable state the ledger is coherent. -/
theorem Reachable.coherent (he : Reachable C e) : e.evidence.Coherent :=
  he.invariant (fun policy => EvidenceLedger.coherent_empty policy.maxEvidenceRecords)
    (fun e ev h _ => coherent_fire e ev h)

/-- It is so in the middle of a pass too. -/
theorem Reachable.coherent_run (he : Reachable C e) (events : List Event) :
    (run fire e events).evidence.Coherent :=
  run_invariant (C := fun _ _ => True) (P := fun s : Engine => s.evidence.Coherent)
    (fun s ev h _ => coherent_fire s ev h) he.coherent (always_of_forall (fun _ _ _ => trivial) e)

end Engine

/-- A blocked drain was blocked in a state that can be. -/
def DrainRecord.Parked (r : DrainRecord) : Prop :=
  r.state = .blocked → ∃ state, r.blockedFrom = some state ∧ state ≠ .blocked ∧
    isLegalDrainTransition state .blocked = true

namespace Engine

open World

theorem parked_fire (e : Engine) (ev : Event) (h : ∀ id r, e.drain id = some r → r.Parked) :
    ∀ id r, (e.fire ev).drain id = some r → r.Parked := by
  refine records_fire ?_ ?_ ?_ e ev h
  · intro request setId reason now id target hblocked
    cases hblocked
  · intro w now r r' hedit hr hblocked
    cases hedit with
    | @moves next detail hne hlegal hrev hresume =>
      obtain rfl : next = .blocked := hblocked
      exact ⟨r.state, rfl, hne.symm, hlegal⟩
    | _ => exact hr hblocked
  · intro now r hreadable hr hblocked
    unfold recoveredRecord at hblocked ⊢
    split_ifs at hblocked ⊢ with htransient
    · have hstate : isTransient r.state = true := htransient
      refine ⟨r.state, rfl, ?_, ?_⟩ <;> revert hstate <;> cases r.state <;> decide
    · exact hr hblocked

/-- In every reachable state blocked drains can be resumed where they were. -/
theorem Reachable.parked (he : Reachable C e) (hr : e.drain id = some r) (hb : r.state = .blocked) :
    ∃ state, r.blockedFrom = some state ∧ state ≠ .blocked ∧
      isLegalDrainTransition state .blocked = true := by
  have hall : ∀ id r, e.drain id = some r → r.Parked :=
    he.invariant (P := fun e => ∀ id r, e.drain id = some r → r.Parked)
      (fun policy id r hr => by simp at hr) (fun e ev h _ => parked_fire e ev h)
  exact hall id r hr hb

end Engine

/-! ### Numbers and sets -/

namespace World

/-- Drains and sets are numbered below their high-water marks, and a set lists its
drains in the order of their numbers. -/
structure Filed (w : World) : Prop where
  number : ∀ id r, w.drain id = some r → 0 < id ∧ id ≤ w.drainHighWater
  belongs : ∀ id r, w.drain id = some r → r.set ≤ w.setHighWater
  set : ∀ id s, w.sets.find? id = some s → 0 < id ∧ id ≤ w.setHighWater
  ordered : ∀ id s, w.sets.find? id = some s → s.members.Pairwise (· < ·)
  members : ∀ id s, w.sets.find? id = some s →
    ∀ m, m ∈ s.members ↔ ∃ r, w.drain m = some r ∧ r.set = id

theorem filed_init (policy : DrainPolicy) : Filed (Engine.init policy).toWorld :=
  ⟨fun _ _ h => by simp at h, fun _ _ h => by simp at h, fun _ _ h => (by cases h),
    fun _ _ h => (by cases h), fun _ _ h => (by cases h)⟩

/-- Only which drains there are, the set each belongs to and the members of each set
matter. -/
theorem Filed.congr (h : Filed w)
    (hdrain : ∀ id, (w'.drain id).map DrainRecord.set = (w.drain id).map DrainRecord.set)
    (hsets : ∀ id, (w'.sets.find? id).map DrainSet.members =
      (w.sets.find? id).map DrainSet.members) (hmark : w.drainHighWater ≤ w'.drainHighWater)
    (hsetMark : w.setHighWater ≤ w'.setHighWater) : Filed w' := by
  have hback := fun id r' => exists_of_map_eq (b := r') (hdrain id).symm
  have hset := fun id s' => exists_of_map_eq (b := s') (hsets id).symm
  refine ⟨fun id r' hr' => ?_, fun id r' hr' => ?_, fun id s' hs' => ?_, fun id s' hs' => ?_,
    fun id s' hs' m => ?_⟩
  · obtain ⟨r, hr, -⟩ := hback id r' hr'
    exact ⟨(h.number id r hr).1, (h.number id r hr).2.trans hmark⟩
  · obtain ⟨r, hr, heq⟩ := hback id r' hr'
    rw [← heq]
    exact (h.belongs id r hr).trans hsetMark
  · obtain ⟨s, hs, -⟩ := hset id s' hs'
    exact ⟨(h.set id s hs).1, (h.set id s hs).2.trans hsetMark⟩
  · obtain ⟨s, hs, heq⟩ := hset id s' hs'
    rw [← heq]
    exact h.ordered id s hs
  · obtain ⟨s, hs, heq⟩ := hset id s' hs'
    rw [← heq, h.members id s hs]
    constructor
    · rintro ⟨r, hr, hrset⟩
      obtain ⟨r', hr', heq'⟩ := exists_of_map_eq (hdrain m) hr
      exact ⟨r', hr', heq'.trans hrset⟩
    · rintro ⟨r', hr', hrset⟩
      obtain ⟨r, hr, heq'⟩ := hback m r' hr'
      exact ⟨r, hr, heq'.trans hrset⟩

/-- The drains of a request take the numbers above the high-water mark. -/
theorem Filed.drain_new (h : Filed w) (request : DrainRequest) (targets : List DrainTarget)
    (now : TimePoint) (hid : w.drainHighWater < id) :
    (w.withDrains request targets now).drain id =
      (newDrains request (w.setHighWater + 1) now w.drainHighWater targets).find?
        (fun r => decide (r.id = id)) := by
  have hnone : w.drain id = none := by
    cases hr : w.drain id with
    | none => rfl
    | some r => exact absurd hid (Nat.not_lt.mpr (h.number id r hr).2)
  rw [drain_withDrains, hnone, Option.none_or]

theorem Filed.withDrains (h : Filed w) (request : DrainRequest) (targets : List DrainTarget)
    (now : TimePoint) : Filed (w.withDrains request targets now) := by
  have hcases : ∀ id r, (w.withDrains request targets now).drain id = some r →
      w.drain id = some r ∨ (w.drainHighWater < id ∧ id ≤ w.drainHighWater + targets.length ∧
        r.set = w.setHighWater + 1) := by
    intro id r hr
    rcases drain_withDrains_cases hr with hold | ⟨hmem, rfl⟩
    · exact Or.inl hold
    · obtain ⟨hlow, hhigh, -, heq⟩ := mem_newDrains hmem
      exact Or.inr ⟨hlow, hhigh, by rw [heq]; rfl⟩
  refine ⟨fun id r hr => ?_, fun id r hr => ?_, fun id s hs => ?_, h.ordered, fun id s hs m => ?_⟩
  · rcases hcases id r hr with hold | ⟨hlow, hhigh, -⟩
    · exact ⟨(h.number id r hold).1, (h.number id r hold).2.trans (Nat.le_add_right _ _)⟩
    · exact ⟨Nat.zero_lt_of_lt hlow, hhigh⟩
  · rcases hcases id r hr with hold | ⟨-, -, hset⟩
    · exact (h.belongs id r hold).trans (Nat.le_succ _)
    · exact hset.le
  · exact ⟨(h.set id s hs).1, (h.set id s hs).2.trans (Nat.le_succ _)⟩
  · rw [h.members id s hs m]
    constructor
    · rintro ⟨r, hr, hrset⟩
      exact ⟨r, drain_withDrains_old request targets now hr, hrset⟩
    · rintro ⟨r, hr, hrset⟩
      rcases hcases m r hr with hold | ⟨-, -, hset⟩
      · exact ⟨r, hold, hrset⟩
      · -- A new drain belongs to a set that is not filed yet.
        have hle := (h.set id s hs).2
        rw [← hrset, hset] at hle
        exact absurd hle (Nat.not_succ_le_self _)

/-- The number of the next set is free. -/
theorem Filed.nextSet_free (h : Filed w) : w.sets.find? (w.setHighWater + 1) = none := by
  by_contra hne
  obtain ⟨s, hs⟩ := Option.ne_none_iff_exists'.mp hne
  exact absurd (h.set _ s hs).2 (Nat.not_succ_le_self _)

theorem sets_founded_cases {id : DrainSetId} {s : DrainSet}
    (hs : ((w.withDrains request targets now).withSet (w.nextSet request targets now)).sets.find?
      id = some s) :
    w.sets.find? id = some s ∨ (id = w.setHighWater + 1 ∧ s = w.nextSet request targets now) := by
  have hfind := Table.find?_foldl_emplace [w.nextSet request targets now] w.sets id
  have hs' : (w.sets.find? id).or ([w.nextSet request targets now].find?
      (fun s => decide (s.id = id))) = some s := hfind ▸ hs
  cases hold : w.sets.find? id with
  | some old =>
    rw [hold, Option.some_or] at hs'
    exact Or.inl hs'
  | none =>
    rw [hold, Option.none_or] at hs'
    have hmem := List.mem_of_find?_eq_some hs'
    have hid : s.id = id := by simpa using List.find?_some hs'
    obtain rfl := List.mem_singleton.mp hmem
    exact Or.inr ⟨hid.symm, rfl⟩

theorem Filed.founded {w : World} (h : Filed w) (request : DrainRequest)
    (targets : List DrainTarget) (now : TimePoint) :
    Filed ((w.withDrains request targets now).withSet (w.nextSet request targets now)) := by
  have hw := h.withDrains request targets now
  refine ⟨hw.number, hw.belongs, fun id s hs => ?_, fun id s hs => ?_, fun id s hs m => ?_⟩
  · rcases sets_founded_cases hs with hold | ⟨rfl, -⟩
    · exact hw.set id s hold
    · exact ⟨Nat.succ_pos _, le_rfl⟩
  · rcases sets_founded_cases hs with hold | ⟨-, rfl⟩
    · exact hw.ordered id s hold
    · rw [nextSet, newDrains_ids]
      exact List.pairwise_lt_range'
  · rcases sets_founded_cases hs with hold | ⟨rfl, rfl⟩
    · exact hw.members id s hold m
    · constructor
      · intro hm
        obtain ⟨r, hr, rfl⟩ := List.mem_map.mp hm
        obtain ⟨hlow, -, -, heq⟩ := mem_newDrains hr
        refine ⟨r, (h.drain_new request targets now hlow).trans (find?_newDrains hr), ?_⟩
        rw [heq]
        rfl
      · rintro ⟨r, hr, hset⟩
        rcases drain_withDrains_cases hr with hold | ⟨hmem, rfl⟩
        · have hle := h.belongs m r hold
          rw [hset] at hle
          exact absurd hle (Nat.not_succ_le_self _)
        · exact List.mem_map_of_mem hmem

/-- What no event takes back: a drain stays in its set and keeps its target, and a set
keeps its members; a new set has a new number. -/
structure Extends (w w' : World) : Prop where
  drain : ∀ id r, w.drain id = some r →
    ∃ r', w'.drain id = some r' ∧ r'.set = r.set ∧ r'.target = r.target
  set : ∀ id s', w'.sets.find? id = some s' →
    (∃ s, w.sets.find? id = some s ∧ s.members = s'.members) ∨ w.setHighWater < id
  mark : w.setHighWater ≤ w'.setHighWater

theorem Extends.refl (w : World) : Extends w w :=
  ⟨fun _ r hr => ⟨r, hr, rfl, rfl⟩, fun _ s hs => Or.inl ⟨s, hs, rfl⟩, le_rfl⟩

theorem Extends.trans {w₁ w₂ : World} (h : Extends w w₁) (h' : Extends w₁ w₂) : Extends w w₂ where
  drain := fun id r hr => by
    obtain ⟨r₁, hr₁, hset, htarget⟩ := h.drain id r hr
    obtain ⟨r₂, hr₂, hset', htarget'⟩ := h'.drain id r₁ hr₁
    exact ⟨r₂, hr₂, hset'.trans hset, htarget'.trans htarget⟩
  set := fun id s₂ hs₂ => by
    rcases h'.set id s₂ hs₂ with ⟨s₁, hs₁, hmembers⟩ | hnew
    · rcases h.set id s₁ hs₁ with ⟨s, hs, hmembers'⟩ | hnew
      · exact Or.inl ⟨s, hs, hmembers'.trans hmembers⟩
      · exact Or.inr hnew
    · exact Or.inr (h.mark.trans_lt hnew)
  mark := h.mark.trans h'.mark

/-- A change that touches neither drains nor sets. -/
theorem Extends.of_eq (hdrains : w'.drains = w.drains) (hsets : w'.sets = w.sets)
    (hmark : w'.setHighWater = w.setHighWater) : Extends w w' where
  drain := fun id r hr => ⟨r, by rw [World.drain, hdrains]; exact hr, rfl, rfl⟩
  set := fun id s hs => Or.inl ⟨s, hsets ▸ hs, rfl⟩
  mark := hmark.ge

theorem Extends.of_write (hwrite : Write w ev w') : Extends w w' := by
  cases hwrite with
  | @record _ r r' hr hedit =>
    refine ⟨fun id q hq => ?_, fun _ s hs => Or.inl ⟨s, hs, rfl⟩, le_rfl⟩
    by_cases hid : r.id = id
    · rw [← hid, hr] at hq
      obtain rfl := Option.some.inj hq
      refine ⟨r', ?_, hedit.identity.2.1, hedit.identity.2.2.1⟩
      rw [drain_withDrain, if_pos (hedit.identity.1.trans hid)]
    · refine ⟨q, ?_, rfl, rfl⟩
      rw [drain_withDrain, if_neg (fun h => hid (hedit.identity.1.symm.trans h)), hq]
  | founded =>
    refine ⟨fun id r hr => ⟨r, drain_withDrains_old _ _ _ hr, rfl, rfl⟩, fun id s hs => ?_,
      Nat.le_succ _⟩
    rcases sets_founded_cases hs with hold | ⟨rfl, -⟩
    · exact Or.inl ⟨s, hold, rfl⟩
    · exact Or.inr (Nat.lt_succ_self _)
  | abandoned =>
    exact ⟨fun id r hr => ⟨r, drain_withDrains_old _ _ _ hr, rfl, rfl⟩,
      fun _ s hs => Or.inl ⟨s, hs, rfl⟩, Nat.le_succ _⟩
  | _ => exact .of_eq rfl rfl rfl

theorem Filed.write (hwrite : Write w ev w') (h : Filed w) : Filed w' := by
  cases hwrite with
  | @record _ r r' hr hedit =>
    refine h.congr (fun id => ?_) (fun _ => rfl) le_rfl le_rfl
    rw [drain_withDrain, hedit.identity.1]
    split_ifs with hid
    · rw [← hid, hr, Option.map_some, Option.map_some, hedit.identity.2.1]
    · rfl
  | founded => exact h.founded _ _ _
  | abandoned => exact h.withDrains _ _ _
  | _ => exact h.congr (fun _ => rfl) (fun _ => rfl) le_rfl le_rfl

end World

namespace Engine

open World

theorem Recovery.filed (h : Recovery e prev now recovered) (hw : Filed e.toWorld) :
    Filed recovered.toWorld := by
  refine hw.congr (fun id => ?_) (fun id => ?_) h.marks.1 h.marks.2
  · rw [h.drain id, Option.map_map]
    cases e.drain id with
    | none => rfl
    | some r =>
      simp only [Option.map_some, Function.comp_apply, recoveredRecord]
      split_ifs <;> rfl
  · rw [h.sets_eq.2, Table.find?_mapVals, Option.map_map]
    rfl

theorem filed_fire (e : Engine) (ev : Event) (h : Filed e.toWorld) : Filed (e.fire ev).toWorld :=
  fire_wellFormed (fun _ _ _ hwrite h => h.write hwrite) (fun _ _ _ _ h hw => h.filed hw) e ev h

theorem Reachable.filed (he : Reachable C e) : Filed e.toWorld :=
  he.invariant filed_init (fun e ev h _ => filed_fire e ev h)

/-- With numbers below the marks a recovery finds the marks where they were. -/
theorem Recovery.marks_eq (h : Recovery e prev now recovered) (hw : Filed e.toWorld) :
    recovered.drainHighWater = e.drainHighWater ∧ recovered.setHighWater = e.setHighWater := by
  have hfold : ∀ (l : List Nat) (start : Nat), (∀ a ∈ l, a ≤ start) → l.foldl max start = start := by
    intro l start hle
    induction l with
    | nil => rfl
    | cons a rest ih =>
      rw [List.foldl_cons, max_eq_left (hle a List.mem_cons_self)]
      exact ih (fun b hb => hle b (List.mem_cons_of_mem _ hb))
  obtain ⟨-, loaded, hload, -, hmark⟩ := h.drains
  have hloaded : loaded = e.drains.mapVals DrainRecord.reloaded DrainRecord.reloaded_id :=
    ((Table.foldlM_emplace_eq_ok _ (fun _ _ _ => loadDrain_eq_ok)).mp hload).2
  constructor
  · rw [hmark, hloaded, Table.keys_mapVals]
    refine hfold _ _ (fun id hid => ?_)
    obtain ⟨r, hr⟩ := Table.mem_keys_iff.mp hid
    exact (hw.number id r hr).2
  · rw [h.sets.2.2, h.sets_eq.2, Table.keys_mapVals]
    refine hfold _ _ (fun id hid => ?_)
    obtain ⟨set, hset⟩ := Table.mem_keys_iff.mp hid
    exact (hw.set id set hset).2

/-- Drains and sets have machine numbers. -/
theorem Reachable.marks (he : Reachable C e) :
    e.drainHighWater ≤ u64Max ∧ e.setHighWater ≤ u64Max := by
  refine (Reachable.wellFormed (P := fun w => Filed w ∧ w.drainHighWater ≤ u64Max ∧
    w.setHighWater ≤ u64Max) (fun policy => ⟨filed_init policy, Nat.zero_le _, Nat.zero_le _⟩)
    ?_ ?_ he).2
  · rintro w ev w' hwrite ⟨hfiled, hdrain, hset⟩
    refine ⟨hfiled.write hwrite, ?_⟩
    cases hwrite with
    | founded _ _ hroom => exact ⟨hroom.2 hdrain, hroom.1⟩
    | abandoned _ _ hroom => exact ⟨hroom.2 hdrain, hroom.1⟩
    | _ => exact ⟨hdrain, hset⟩
  · rintro e prev now recovered h ⟨hfiled, hdrain, hset⟩
    obtain ⟨hdrains, hsets⟩ := h.marks_eq hfiled
    exact ⟨h.filed hfiled, hdrains ▸ hdrain, hsets ▸ hset⟩

/-! ### Nonces -/

/-- Nonces other than zero are recovered as they were. -/
theorem Recovery.nonces_eq (h : Recovery e prev now recovered)
    (hw : ∀ p ∈ e.nonceSets.toList, p.1 ≠ 0) : recovered.nonceSets = e.nonceSets := by
  have hfold : ∀ (l : List (RequestNonce × DrainSetId)) (m : OrdMap RequestNonce DrainSetId),
      (∀ p ∈ l, p.1 ≠ 0) →
      (l.map (fun p => JsonValue.object [("nonce", .uint p.1), ("set", .uint p.2)])).foldl
        loadNonce m = l.foldl (fun m p => OrdMap.set m p.1 p.2) m := by
    intro l
    induction l with
    | nil => exact fun m _ => rfl
    | cons p rest ih =>
      intro m hne
      have hload : loadNonce m (.object [("nonce", .uint p.1), ("set", .uint p.2)]) =
          OrdMap.set m p.1 p.2 := by
        simp [loadNonce, JsonValue.getUint, JsonValue.asUint, hne p List.mem_cons_self]
      rw [List.map_cons, List.foldl_cons, List.foldl_cons, hload]
      exact ih _ (fun q hq => hne q (List.mem_cons_of_mem p hq))
  rw [h.nonces.2, hfold _ _ hw]
  exact OrdMap.foldl_set_toList e.nonceSets

theorem nonces_fire (e : Engine) (ev : Event) (h : ∀ p ∈ e.nonceSets.toList, p.1 ≠ 0) :
    ∀ p ∈ (e.fire ev).nonceSets.toList, p.1 ≠ 0 := by
  refine fire_wellFormed (P := fun w => ∀ p ∈ w.nonceSets.toList, p.1 ≠ 0) ?_ ?_ e ev h
  · intro w ev w' hwrite hw
    cases hwrite with
    | founded =>
      intro p hp
      simp only [withSet] at hp
      split_ifs at hp with hnew
      · rcases mem_putList hp with rfl | hold
        · exact hnew.1
        · exact hw p hold
      · exact hw p hp
    | _ => exact hw
  · intro e prev now recovered hrec hw
    rw [hrec.nonces_eq hw]
    exact hw

/-- In every reachable state only nonces other than zero are filed. -/
theorem Reachable.nonces (he : Reachable C e) : ∀ p ∈ e.nonceSets.toList, p.1 ≠ 0 :=
  he.invariant (fun _ p hp => by cases hp) (fun e ev h _ => nonces_fire e ev h)

theorem Recovery.extends (h : Recovery e prev now recovered) :
    Extends e.toWorld recovered.toWorld where
  drain := fun id r hr => by
    have hset : (recoveredRecord now r.reloaded).set = r.set := by
      unfold recoveredRecord
      split_ifs <;> rfl
    exact ⟨_, by rw [h.drain id, hr]; rfl, hset, (restarted_recoveredRecord now r).target⟩
  set := fun id s' hs' => by
    rw [h.sets_eq.2, Table.find?_mapVals] at hs'
    obtain ⟨s, hs, rfl⟩ := Option.map_eq_some_iff.mp hs'
    exact Or.inl ⟨s, hs, rfl⟩
  mark := h.marks.2

/-- Every event extends the state. -/
theorem fire_extends (e : Engine) (ev : Event) : Extends e.toWorld (e.fire ev).toWorld := by
  refine fire_wellFormed (P := fun w => Extends e.toWorld w) ?_ ?_ e ev (.refl _)
  · intro w ev w' hwrite hw
    exact hw.trans (.of_write hwrite)
  · intro e' prev now recovered hrec he'
    exact he'.trans hrec.extends

end Engine

end DrainFabric
