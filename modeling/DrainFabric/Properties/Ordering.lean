import Mathlib.Data.Nat.Digits.Defs
import DrainFabric.Properties.Correlation

/-!
# The order of admission

A drain that may not close admission yet waits for another drain, which its
`SetPredecessorPending` blocker names. Drains wait for smaller numbers only, so nothing
waits in a circle; and once no drain of a failure domain holds a fence or is being
restored, the lowest waiting drain of the domain waits for nobody.

* `World.pending_cases`, `World.limited` — which blockers the ordering rules produce;
* `World.unsettled_cases` — a drain that has not settled waits, holds its fence or is
  being restored.
-/

namespace DrainFabric

open Lib

variable {m : DrainId} {w : World} {r : DrainRecord} {b : Blocker} {now : TimePoint}
  {C : Engine → Event → Prop}

namespace World

/-- The text of a machine number is not cut short. -/
theorem subject_drain (hm : m ≤ u64Max) :
    truncate ("drain:" ++ toString m) 192 = "drain:" ++ toString m := by
  have hdigits : (toString m).length ≤ 20 :=
    Nat.repr_length m 20 (by decide) (hm.trans_lt (by decide))
  have hlength : ("drain:" ++ toString m).length ≤ 192 := by
    rw [String.length_append, show "drain:".length = 6 from rfl]
    omega
  exact if_pos hlength

theorem drain_of_subject {m' : DrainId} (h : "drain:" ++ toString m = "drain:" ++ toString m') :
    m = m' := by
  have hlist := congrArg String.toList h
  rw [String.toList_append, String.toList_append] at hlist
  have hdigits := congrArg (fun digits => Nat.ofDigitChars 10 digits 0)
    (List.append_cancel_left hlist)
  simpa [Nat.toString_eq_ofList_toDigits] using hdigits

/-! ### Which drains the rules name -/

theorem frontmost_some {front : DrainId} (h : w.frontmost r = some front) :
    ∃ other, w.drain front = some other ∧
      other.target.domain = r.target.domain ∧ isWaiting other = true := by
  have hmem := Table.mem_keys_filter.mp (List.mem_of_mem_head? (Option.mem_def.mpr h))
  obtain ⟨other, hother, hcond⟩ := (Option.any_eq_true _ _).mp hmem
  simp only [Bool.and_eq_true, beq_iff_eq] at hcond
  exact ⟨other, hother, hcond.1.2, hcond.2⟩

theorem lt_of_mem_takeWhile {l : List DrainId} {a b : DrainId} (hsorted : l.Pairwise (· < ·))
    (hb : b ∈ l) (ha : a ∈ l.takeWhile (fun member => member != b)) : a < b := by
  induction l with
  | nil => cases hb
  | cons x rest ih =>
    rw [List.pairwise_cons] at hsorted
    by_cases hx : x = b
    · rw [List.takeWhile_cons_of_neg (by simpa using hx)] at ha
      cases ha
    · have hrest : b ∈ rest := (List.mem_cons.mp hb).resolve_left (Ne.symm hx)
      rw [List.takeWhile_cons_of_pos (by simpa using hx)] at ha
      rcases List.mem_cons.mp ha with rfl | ha
      · exact hsorted.1 b hrest
      · exact ih hsorted.2 hrest ha

theorem unsettledPredecessor_some (hfiled : Filed w) (hr : w.drain r.id = some r)
    (h : w.unsettledPredecessor r = some m) :
    ∃ other, w.drain m = some other ∧ m < r.id ∧ other.target.domain = r.target.domain ∧
      isSettled other.state = false := by
  unfold unsettledPredecessor at h
  split_ifs at h
  cases hset : w.sets.find? r.set with
  | none =>
    rw [hset] at h
    cases h
  | some set =>
    rw [hset] at h
    have hown : r.id ∈ set.members := (hfiled.members r.set set hset r.id).mpr ⟨r, hr, rfl⟩
    have hlt := lt_of_mem_takeWhile (hfiled.ordered r.set set hset) hown
      (List.mem_of_find?_eq_some h)
    have hcond := List.find?_some h
    cases hother : w.drain m with
    | none =>
      rw [hother] at hcond
      cases hcond
    | some other =>
      rw [hother] at hcond
      simp only [Bool.and_eq_true, beq_iff_eq, Bool.not_eq_true'] at hcond
      exact ⟨other, rfl, hlt, hcond⟩

/-! ### The blockers of the rules -/

theorem code_of_authorityBlockers (h : b ∈ w.authorityBlockers r now) :
    b.code = .authorityInvalid := by
  unfold authorityBlockers at h
  split_ifs at h
  · rw [List.mem_singleton.mp h]
    rfl
  · split at h
    · cases h
    · split_ifs at h
      · split at h
        · cases h
        · rw [List.mem_singleton.mp h]
          rfl
      · cases h

theorem code_of_blockerFromViolation (r : DrainRecord) (violation : TopologyViolation)
    (now : TimePoint) : (blockerFromViolation r violation now).code ≠ .domainLimitReached ∧
      (blockerFromViolation r violation now).code ≠ .setPredecessorPending := by
  unfold blockerFromViolation makeBlocker
  cases violation.kind <;> simp

/-- A blocker of the start is the domain limit, names a drain that comes first, or is of
another rule. -/
theorem mem_evaluateStart (h : b ∈ w.evaluateStart r now) :
    (b.code = .domainLimitReached ∧
      w.policy.maxConcurrentDrainsPerDomain ≤ w.activeDrainsInDomain r.target.domain r.id) ∨
    (b.code = .setPredecessorPending ∧ ∃ m, b.subject = truncate ("drain:" ++ toString m) 192 ∧
      ((w.frontmost r = some m ∧ m < r.id) ∨ w.unsettledPredecessor r = some m)) ∨
    (b.code ≠ .domainLimitReached ∧ b.code ≠ .setPredecessorPending) := by
  simp only [evaluateStart, List.mem_append] at h
  rcases h with (((((h | h) | h) | h) | h) | h) | h
  · rw [code_of_authorityBlockers h]
    exact Or.inr (Or.inr ⟨by decide, by decide⟩)
  · cases hentry : w.fence.entry r.target with
    | none => simp [hentry] at h
    | some entry =>
      simp only [hentry, List.mem_ite_nil_right, List.mem_singleton] at h
      rw [h.2]
      exact Or.inr (Or.inr ⟨by simp [makeBlocker], by simp [makeBlocker]⟩)
  · refine Or.inr (Or.inr ?_)
    cases hnode : w.topology.resource r.target.id with
    | none =>
      simp only [hnode, List.mem_singleton] at h
      rw [h]
      exact ⟨by simp [makeBlocker], by simp [makeBlocker]⟩
    | some node =>
      simp only [hnode, List.mem_ite_nil_left, List.mem_singleton] at h
      rw [h.2]
      exact ⟨by simp [makeBlocker], by simp [makeBlocker]⟩
  · rw [List.mem_ite_nil_right, List.mem_singleton] at h
    exact Or.inl ⟨h.2 ▸ rfl, h.1⟩
  · cases hfront : w.frontmost r with
    | none => simp [hfront] at h
    | some front =>
      simp only [hfront, List.mem_ite_nil_right, List.mem_singleton] at h
      exact Or.inr (Or.inl ⟨h.2 ▸ rfl, front, h.2 ▸ rfl, Or.inl ⟨rfl, h.1⟩⟩)
  · cases hfirst : w.unsettledPredecessor r with
    | none => simp [hfirst] at h
    | some m =>
      simp only [hfirst, List.mem_singleton] at h
      exact Or.inr (Or.inl ⟨h ▸ rfl, m, h ▸ rfl, Or.inr rfl⟩)
  · rw [List.mem_ite_nil_right, List.mem_singleton] at h
    rw [h.2]
    exact Or.inr (Or.inr (code_of_blockerFromViolation r _ now))

theorem isSettled_of_waiting (h : isWaiting r = true) : isSettled r.state = false := by
  cases hs : r.state <;> simp [isWaiting, hs, isSettled] at h ⊢

end World

namespace Engine

open World

/-- A drain that has not settled waits, holds its fence or is being restored. -/
theorem Reachable.unsettled_cases {e : Engine} (he : Reachable C e) {id : DrainId}
    (hr : e.drain id = some r) (h : isSettled r.state = false) :
    isWaiting r = true ∨ holdsFence r = true ∨ r.phase = .restoring := by
  by_cases hb : r.state = .blocked
  · obtain ⟨state, hfrom, hne, hlegal⟩ := he.parked hr hb
    rw [holdsFence_eq, DrainRecord.phase, if_pos hb, isWaiting, hb, hfrom, Option.getD_some,
      Option.any_some]
    revert hne hlegal
    cases state <;> decide
  · rw [holdsFence_eq, DrainRecord.phase_of_not_blocked hb, isWaiting]
    revert h hb
    cases r.state <;> simp [isSettled, isFenceHoldingState]

/-- Who a drain waits for has not settled and comes before it. -/
theorem Reachable.pending {e : Engine} (he : Reachable C e) {id : DrainId}
    (hr : e.drain id = some r) (hb : b ∈ e.evaluateStart r now)
    (hcode : b.code = .setPredecessorPending) :
    ∃ m other, e.drain m = some other ∧ m < id ∧ other.target.domain = r.target.domain ∧
      isSettled other.state = false ∧ b.subject = "drain:" ++ toString m := by
  obtain rfl := id_of_drain hr
  rcases mem_evaluateStart hb with ⟨hlimit, -⟩ | ⟨-, m, hsubject, hfirst⟩ | ⟨-, hnot⟩
  · rw [hcode] at hlimit
    cases hlimit
  · obtain ⟨other, hother, hlt, hdomain, hunsettled⟩ : ∃ other, e.drain m = some other ∧
        m < r.id ∧ other.target.domain = r.target.domain ∧ isSettled other.state = false := by
      rcases hfirst with ⟨hfront, hlt⟩ | hpredecessor
      · obtain ⟨other, hother, hdomain, hwaits⟩ := frontmost_some hfront
        exact ⟨other, hother, hlt, hdomain, isSettled_of_waiting hwaits⟩
      · exact unsettledPredecessor_some he.filed hr hpredecessor
    have hmachine : m ≤ u64Max := (he.filed.number m other hother).2.trans he.marks.1
    exact ⟨m, other, hother, hlt, hdomain, hunsettled, hsubject.trans (subject_drain hmachine)⟩
  · exact absurd hcode hnot

/-- Nothing holds a fence in a domain without fence holders. -/
theorem active_eq_zero {domain : DomainId} (id : DrainId)
    (h : ∀ m other, w.drain m = some other → other.target.domain = domain →
      holdsFence other = false) : w.activeDrainsInDomain domain id = 0 := by
  refine List.length_eq_zero_iff.mpr (List.filter_eq_nil_iff.mpr (fun other hmem => ?_))
  have hother := h other.id other (Table.find?_of_mem hmem)
  by_cases hdomain : other.target.domain = domain
  · simp [hother hdomain]
  · simp [hdomain]

end Engine

open Engine World

/-- `id` waits for `m`: its start is blocked by a predecessor, and the blocker names `m`. -/
def WaitsFor (e : Engine) (now : TimePoint) (id m : DrainId) : Prop :=
  ∃ r b, e.drain id = some r ∧ b ∈ e.evaluateStart r now ∧ b.code = .setPredecessorPending ∧
    b.subject = "drain:" ++ toString m

/-- In every reachable state with a valid policy: a drain waits only for unsettled drains
of its domain with a smaller number, so nothing waits in a circle. And the lowest waiting
drain of a domain where no drain holds a fence or is being restored is not held up by the
domain limit or by a predecessor. -/
theorem admission_ordered {C : Engine → Event → Prop} {e : Engine} (he : Reachable C e)
    (hpolicy : e.policy.validate = .ok ()) (now : TimePoint) :
    (∀ id r, e.drain id = some r → ∀ b ∈ e.evaluateStart r now, b.code = .setPredecessorPending →
      ∃ m other, e.drain m = some other ∧ m < id ∧ other.target.domain = r.target.domain ∧
        isSettled other.state = false ∧ b.subject = "drain:" ++ toString m) ∧
    WellFounded (fun m id => WaitsFor e now id m) ∧
    ∀ id r, e.drain id = some r → isWaiting r = true →
      (∀ m other, e.drain m = some other → other.target.domain = r.target.domain →
        holdsFence other = false ∧ other.phase ≠ .restoring) →
      (∀ m other, e.drain m = some other → other.target.domain = r.target.domain →
        isWaiting other = true → id ≤ m) →
      ∀ b ∈ e.evaluateStart r now,
        b.code ≠ .domainLimitReached ∧ b.code ≠ .setPredecessorPending := by
  refine ⟨fun id r hr b hb hcode => he.pending hr hb hcode, ?_, ?_⟩
  · refine Subrelation.wf (r := fun m id : Nat => m < id) ?_ Nat.lt_wfRel.wf
    rintro m id ⟨r, b, hr, hb, hcode, hsubject⟩
    obtain ⟨m', other, -, hlt, -, -, hnamed⟩ := he.pending hr hb hcode
    rwa [drain_of_subject (hsubject.symm.trans hnamed)]
  · intro id r hr hwaits hfree hlowest b hb
    constructor
    · intro hcode
      rcases mem_evaluateStart hb with ⟨-, hlimit⟩ | ⟨hpending, -⟩ | ⟨hnot, -⟩
      · rw [active_eq_zero r.id (fun m other hm hd => (hfree m other hm hd).1)] at hlimit
        exact absurd (DrainPolicy.validate_eq_ok.mp hpolicy).maxConcurrentDrainsPerDomain.1 (not_lt.mpr hlimit)
      · rw [hcode] at hpending
        cases hpending
      · exact hnot hcode
    · intro hcode
      obtain ⟨m, other, hother, hlt, hdomain, hunsettled, -⟩ := he.pending hr hb hcode
      obtain ⟨hholds, hrestoring⟩ := hfree m other hother hdomain
      rcases he.unsettled_cases hother hunsettled with hw | hf | hp
      · exact absurd (hlowest m other hother hdomain hw) (not_le.mpr hlt)
      · rw [hholds] at hf
        cases hf
      · exact hrestoring hp

/-- Two ports of one domain, asked to be drained as a set, that both wait to close
admission. -/
def OnePort.bothWaiting : Engine :=
  run Engine.perform (Engine.init OnePort.serialised) (OnePort.withNeighbour ++ [.advance 1])

theorem admission_ordered_waiting :
    ∃ r r', OnePort.bothWaiting.drain 1 = some r ∧ OnePort.bothWaiting.drain 2 = some r' ∧
      (∀ b ∈ OnePort.bothWaiting.evaluateStart r 1,
        b.code ≠ .domainLimitReached ∧ b.code ≠ .setPredecessorPending) ∧
      (OnePort.bothWaiting.evaluateStart r' 1).map (fun b => (b.code, b.subject)) =
        [(.setPredecessorPending, "drain:1"), (.setPredecessorPending, "drain:1")] := by
  have hreach : Reachable (fun _ _ => True) OnePort.bothWaiting :=
    reachable_run (.init OnePort.serialised) (by decide +kernel)
  have hr : OnePort.bothWaiting.drain 1 = some ((OnePort.bothWaiting.drain 1).getD {}) := by
    decide +kernel
  have hr' : OnePort.bothWaiting.drain 2 = some ((OnePort.bothWaiting.drain 2).getD {}) := by
    decide +kernel
  have hfree : ∀ other ∈ OnePort.bothWaiting.drains.toList,
      holdsFence other = false ∧ other.phase ≠ .restoring ∧ 1 ≤ other.id := by decide +kernel
  refine ⟨_, _, hr, hr', ?_, by decide +kernel⟩
  refine (admission_ordered hreach (by decide +kernel) 1).2.2 1 _ hr (by decide +kernel) ?_ ?_
  · intro m other hother hdomain
    have h := hfree other (Table.mem_of_find? hother)
    exact ⟨h.1, h.2.1⟩
  · intro m other hother hdomain hwaits
    obtain rfl := id_of_drain hother
    exact (hfree other (Table.mem_of_find? hother)).2.2

end DrainFabric
