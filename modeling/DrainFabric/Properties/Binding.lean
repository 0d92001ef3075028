import DrainFabric.Engine.Frame
import DrainFabric.Engine.Sound

/-!
# Binding

An obligation is admitted under the generation that the fences of its dependencies
are at. Generations only grow, and a closure takes a new one, so an obligation is
never bound to a target after the closure it was not there for.

The one operation that loses a generation is a closure that fails: it erases the
entry. It fails with the generation space exhausted, or with the table full, and a
full table does not refuse a target it already knows. So the bound on the table is
carried along (`Advances` and `Bounded`).

* `no_binding_after_closure` — every obligation is at most at the generation of each
  of its dependencies, and below it where admission is closed;
* `open_targets_admit` — a draft over open targets is admitted under some generation exactly
  when its targets are at one.
-/

namespace DrainFabric

open Lib World Engine

variable {f f' : AdmissionFence} {target : DrainTarget} {drain : DrainId} {at_ : TimePoint}
  {reason : String} {next : Generation} {result : Result Generation}

namespace AdmissionFence

/-- Every fence stays as it is or takes a later generation. -/
def Advances (f f' : AdmissionFence) : Prop :=
  ∀ target, f.generation target < f'.generation target ∨
    f'.generation target = f.generation target ∧ f'.isClosed target = f.isClosed target

/-- The table is within its bound. -/
def Bounded (f : AdmissionFence) : Prop := f.entries.size ≤ maxFencedTargets

theorem Advances.refl (f : AdmissionFence) : Advances f f := fun _ => Or.inr ⟨rfl, rfl⟩

theorem Advances.trans {g h : AdmissionFence} (hfg : Advances f g) (hgh : Advances g h) :
    Advances f h := by
  intro target
  rcases hfg target with hlt | ⟨hgen, hclosed⟩ <;> rcases hgh target with hlt' | ⟨hgen', hclosed'⟩
  · exact Or.inl (hlt.trans hlt')
  · exact Or.inl (hgen' ▸ hlt)
  · exact Or.inl (hgen ▸ hlt')
  · exact Or.inr ⟨hgen'.trans hgen, hclosed'.trans hclosed⟩

/-- One entry takes a later generation, the others stay. -/
theorem Advances.of_entry (h : f.generation target < f'.generation target)
    (hothers : ∀ other, other ≠ target → f'.entry other = f.entry other) : Advances f f' := by
  intro other
  by_cases hother : other = target
  · exact Or.inl (hother ▸ h)
  · exact Or.inr ⟨by rw [generation, generation, hothers other hother],
      by rw [isClosed, isClosed, hothers other hother]⟩

/-- A closure that fails although a generation is left changes nothing: it was
refused a new place in a full table. -/
theorem close_refused {err : Error} (hbound : f.Bounded) (hgen : f.generation target < u64Max)
    (h : f.close target drain at_ reason = (f', .error err)) : f' = f := by
  unfold close at h
  split_ifs at h with hzero
  · exact (Prod.mk.inj h).1.symm
  simp only [generation_getD, incrementChecked_eq, if_pos hgen] at h
  split_ifs at h with hfull
  · cases hentry : f.entries.find? target with
    | some p =>
      have hsize := Table.size_put_of_mem (t := f.entries)
        (v := (target, (f.entry target).getD {})) (by rw [hentry]; rfl)
      exact absurd hfull (not_lt.mpr (hsize.trans_le hbound))
    | none =>
      rw [← (Prod.mk.inj h).1, OrdMap.set]
      have herase := Table.erase_put f.entries (target, (f.entry target).getD {})
      rw [herase, Table.erase_of_none hentry]
  · cases (Prod.mk.inj h).2

theorem close_bounded (h : f.close target drain at_ reason = (f', .ok next)) : f'.Bounded := by
  obtain ⟨-, -, hsize, rfl⟩ := close_eq_ok h
  rw [Bounded, OrdMap.set, Table.size_put_of_mem]
  · exact hsize
  · rw [OrdMap.set, Table.find?_put_of_eq rfl]
    rfl

/-- A closure with a generation left advances the fence and stays within the bound. -/
theorem close_advances (hbound : f.Bounded) (hgen : f.generation target < u64Max)
    (h : f.close target drain at_ reason = (f', result)) : Advances f f' ∧ f'.Bounded := by
  cases result with
  | error err =>
    obtain rfl := close_refused hbound hgen h
    exact ⟨.refl f', hbound⟩
  | ok next =>
    obtain ⟨-, rfl, ⟨e, he, -, -, hnext⟩, hothers⟩ := close_ok h
    refine ⟨.of_entry ?_ hothers, close_bounded h⟩
    rw [generation_of_entry he, hnext]
    exact Nat.lt_succ_self _

theorem size_reopen (h : f.reopen target drain at_ reason = .ok (f', next)) :
    f'.entries.size = f.entries.size := by
  obtain ⟨before, hentry, -, -, rfl⟩ := reopen_eq_ok h
  obtain ⟨p, hp, -⟩ := Option.map_eq_some_iff.mp hentry
  exact Table.size_put_of_mem (by rw [hp]; rfl)

theorem reopen_advances (hbound : f.Bounded)
    (h : f.reopen target drain at_ reason = .ok (f', next)) : Advances f f' ∧ f'.Bounded := by
  obtain ⟨before, after, hbefore, -, hafter, -, -, hnext, rfl, hothers⟩ := reopen_ok h
  refine ⟨.of_entry ?_ hothers, (size_reopen h).trans_le hbound⟩
  rw [generation_of_entry hbefore, generation_of_entry hafter, hnext]
  exact Nat.lt_succ_self _

end AdmissionFence

open AdmissionFence

theorem reopenFence_advances {r : DrainRecord} {now : TimePoint} (hbound : f.Bounded)
    (hgen : f.generation r.target < u64Max) (h : reopenFence f r reason now = (f', result)) :
    Advances f f' ∧ f'.Bounded := by
  rcases reopenFence_cases h with ⟨rfl, -⟩ | ⟨next, -, hreopen, -⟩ |
    ⟨-, mid, closed, hclose, hrest⟩
  · exact ⟨.refl f', hbound⟩
  · exact reopen_advances hbound hreopen
  · obtain ⟨hmid, hmidBound⟩ := close_advances hbound hgen hclose
    rcases hrest with ⟨rfl, -⟩ | ⟨-, next, -, -, hreopen⟩
    · exact ⟨hmid, hmidBound⟩
    · obtain ⟨hlast, hlastBound⟩ := reopen_advances hmidBound hreopen
      exact ⟨hmid.trans hlast, hlastBound⟩

/-! ### The fence along a run -/

/-- No fence is at its last generation. -/
def GenerationsLeft (e : Engine) (_ : Event) : Prop :=
  ∀ p ∈ e.fence.entries.toList, p.2.generation < u64Max

instance (e : Engine) (ev : Event) : Decidable (GenerationsLeft e ev) :=
  inferInstanceAs (Decidable (∀ p ∈ e.fence.entries.toList, p.2.generation < u64Max))

theorem GenerationsLeft.generation_lt {e : Engine} {ev : Event} (h : GenerationsLeft e ev)
    (target : DrainTarget) : e.fence.generation target < u64Max := by
  cases hentry : e.fence.entry target with
  | none =>
    simp only [generation, hentry]
    decide
  | some entry =>
    rw [generation_of_entry hentry]
    exact h (target, entry) (OrdMap.get?_eq_some_iff.mp hentry)

/-- Every event advances the fence. -/
theorem advances_step {w w' : World} {ev : Event} (h : DrainStep w ev w')
    (hbound : w.fence.Bounded) (hgen : ∀ target, w.fence.generation target < u64Max) :
    Advances w.fence w'.fence ∧ w'.fence.Bounded := by
  have hsame : w'.fence = w.fence → Advances w.fence w'.fence ∧ w'.fence.Bounded := by
    intro heq
    rw [heq]
    exact ⟨.refl _, hbound⟩
  cases h with
  | stays _ _ hfence => exact hsame hfence
  | moves _ _ _ _ _ hfence => exact hsame hfence
  | closes _ _ _ _ hclose => exact close_advances hbound (hgen _) hclose
  | closeFails _ _ _ _ hclose => exact close_advances hbound (hgen _) hclose
  | settles _ _ _ _ _ hfence => exact hsame hfence
  | cancels _ _ _ _ _ _ hfence => exact hsame hfence
  | reopens _ _ _ hreopen => exact reopenFence_advances hbound (hgen _) hreopen
  | reopenFails _ _ _ hreopen => exact reopenFence_advances hbound (hgen _) hreopen
  | spawns _ hspawn => exact hsame hspawn.fence
  | recovers hrec =>
    refine ⟨fun target => Or.inr ?_, ?_⟩
    · rw [generation, generation, isClosed, isClosed, entry_of_loaded hrec.fence target]
      cases w.fence.entry target <;> exact ⟨rfl, rfl⟩
    · rw [Bounded, hrec.fence, Table.size_mapVals]
      exact hbound

/-! ### Obligations against the fence -/

/-- The generation is not later than the fence of the target, and earlier if that is
closed. -/
def AdmissionFence.Issued (f : AdmissionFence) (target : DrainTarget) (g : Generation) : Prop :=
  g ≤ f.generation target ∧ (f.isClosed target = true → g < f.generation target)

theorem AdmissionFence.Advances.issued {f f' : AdmissionFence} (h : Advances f f')
    {target : DrainTarget} {g : Generation} (hg : f.Issued target g) : f'.Issued target g := by
  rcases h target with hlt | ⟨hgen, hclosed⟩
  · exact ⟨(hg.1.trans_lt hlt).le, fun _ => hg.1.trans_lt hlt⟩
  · rwa [Issued, hgen, hclosed]

/-- The bound on the fence, and every obligation against its dependencies. -/
structure World.Bound (w : World) : Prop where
  fence : w.fence.Bounded
  obligations : ∀ id o, w.obligations.find id = some o → ∀ target ∈ o.dependencies,
    w.fence.Issued target o.admissionGeneration

theorem bound_init (policy : DrainPolicy) : Bound (Engine.init policy).toWorld :=
  ⟨Nat.zero_le _, fun _ _ h => by simp at h⟩

theorem bound_fire (e : Engine) (ev : Event) (inv : Bound e.toWorld) (hev : GenerationsLeft e ev) :
    Bound (e.fire ev).toWorld := by
  obtain ⟨hadvances, hbound⟩ :=
    advances_step (fire_drainStep e ev) inv.fence hev.generation_lt
  refine ⟨hbound, fun id o' ho' target hdep => hadvances.issued ?_⟩
  have hterms : ∀ {o : Obligation}, e.obligations.find id = some o → SameTerms o o' →
      e.fence.Issued target o'.admissionGeneration := by
    intro o ho hterms
    rw [hterms.admissionGeneration]
    exact inv.obligations id o ho target (hterms.dependencies ▸ hdep)
  cases (fire_obligationStep e ev).fate ho' with
  | keeps ho h => exact hterms ho h
  | admitted _ hdeps _ hpresented hcheck =>
    -- Admission compares with the fence of every dependency, and refuses a closed one.
    obtain ⟨hgen, hopen⟩ := checkAdmission_ok (hcheck target (hdeps ▸ hdep))
    rw [hpresented, Issued, hopen, hgen]
    exact ⟨le_rfl, fun h => by cases h⟩
  | reported ho h => exact hterms ho h
  | retired _ _ _ ho h => exact hterms ho h

/-- In every state reachable without exhausting a generation: the generation an
obligation was admitted under is at most that of the fence of each of its
dependencies, and smaller where admission is closed. -/
theorem no_binding_after_closure {e : Engine} (he : Reachable GenerationsLeft e)
    {id : ObligationId} {o : Obligation} (ho : e.obligations.find id = some o)
    {target : DrainTarget} (hdep : target ∈ o.dependencies) :
    o.admissionGeneration ≤ e.fence.generation target ∧
      (e.fence.isClosed target = true → o.admissionGeneration < e.fence.generation target) :=
  (he.invariant (P := fun e : Engine => Bound e.toWorld) bound_init bound_fire).obligations id o ho
    target hdep

/-- The port with a protected flow, after the closure of admission and a restart. -/
def OnePort.fencedFlow : Engine :=
  run perform (Engine.init {}) ((OnePort.setup 1).map .call ++
    [.call (OnePort.admitFlow 1), .advance 1, .advance 1, .restart 1 1])

theorem no_binding_after_closure_onePort :
    ∃ o, OnePort.fencedFlow.obligations.find 1 = some o ∧
      OnePort.fencedFlow.fence.isClosed OnePort.port = true ∧
      o.admissionGeneration < OnePort.fencedFlow.fence.generation OnePort.port := by
  have hreach : Reachable GenerationsLeft OnePort.fencedFlow :=
    reachable_run (.init {}) (by decide +kernel)
  have hflow : (OnePort.fencedFlow.obligations.find 1).any
      (fun o => OnePort.port ∈ o.dependencies) = true := by
    decide +kernel
  have hclosed : OnePort.fencedFlow.fence.isClosed OnePort.port = true := by decide +kernel
  obtain ⟨o, ho, hdep⟩ := Option.any_eq_true _ _ |>.mp hflow
  rw [decide_eq_true_iff] at hdep
  exact ⟨o, ho, hclosed, (no_binding_after_closure hreach ho hdep).2 hclosed⟩

/-! ### Admission over open targets -/

/-- An open target admits under the generation it is at. -/
theorem AdmissionFence.checkAdmission_of_open (h : f.isClosed target = false) :
    f.checkAdmission target (f.generation target) = .ok () := by
  unfold checkAdmission generation
  cases hentry : f.entry target with
  | none => exact rejectIf_eq_ok.mpr (fun hne => hne rfl)
  | some entry =>
    have hopen : entry.closed = false := by simpa [isClosed, hentry] using h
    simp [hopen, rejectIf_eq_ok]

theorem Engine.refusedDependency_of_all {w : World} {presented : Generation}
    {targets : List DrainTarget}
    (h : ∀ target ∈ targets, w.fence.checkAdmission target presented = .ok ()) :
    refusedDependency w presented targets = none := by
  induction targets with
  | nil => rfl
  | cons target rest ih =>
    rw [refusedDependency, h target List.mem_cons_self]
    exact ih (fun other hother => h other (List.mem_cons_of_mem target hother))

/-- A table with room takes every draft. -/
theorem ObligationTable.Numbered.insert_ok {t : ObligationTable} (h : t.Numbered)
    (hroom : t.size < t.maxObligations) (hids : t.highWater < u64Max) (draft : Obligation) :
    ∃ o, (t.insert draft).2 = .ok o := by
  have hfree : t.find (t.highWater + 1) = none := by
    by_contra hne
    obtain ⟨o, ho⟩ := Option.ne_none_iff_exists'.mp hne
    have hid := id_of_find ho
    have hle := (h o (mem_all_iff.mpr (hid ▸ ho))).2
    rw [hid] at hle
    exact absurd hle (Nat.not_succ_le_self _)
  have hput : t.obligations.emplace { draft with id := t.highWater + 1 } =
      some (t.obligations.put { draft with id := t.highWater + 1 }) := Table.emplace_of_none hfree
  refine ⟨{ draft with id := t.highWater + 1 }, ?_⟩
  simp only [ObligationTable.insert, if_neg (Nat.not_le.mpr hroom), incrementChecked_eq, if_pos hids, hput]

section

variable {e : Engine} {draft : Obligation} {authority : AuthorityId} {now : TimePoint}

/-- What is asked of a draft and of the engine besides the generation. -/
structure Engine.Admits (e : Engine) (draft : Obligation) (authority : AuthorityId)
    (now : TimePoint) : Prop where
  authorized : e.requireAuthority authority now = .ok ()
  named : draft.dependencies.val ≠ []
  bound : draft.dependencies.val.length ≤ maxDependenciesPerObligation
  isOpen : ∀ target ∈ draft.dependencies.val, e.fence.isClosed target = false
  room : e.obligations.size < e.obligations.maxObligations
  ids : e.obligations.highWater < u64Max

/-- One generation is compared with the fence of every dependency. -/
theorem Engine.admitObligation_ok_iff (hnumbered : e.obligations.Numbered)
    (h : e.Admits draft authority now) (presented : Generation) :
    (∃ o, (e.admitObligation draft presented authority now).2 = .ok o) ↔
      ∀ target ∈ draft.dependencies.val, e.fence.generation target = presented := by
  constructor
  · rintro ⟨o, ho⟩ target htarget
    rcases admitObligation_cases e draft presented authority now with
      ⟨-, hrefused⟩ | ⟨-, -, hchecks, -⟩
    · rw [ho] at hrefused
      cases hrefused
    · exact (AdmissionFence.checkAdmission_ok (hchecks target htarget)).1.symm
  · intro hsame
    have hpasses : refusedDependency e.toWorld presented draft.dependencies.val = none :=
      refusedDependency_of_all (fun target htarget => by
        rw [← hsame target htarget]
        exact AdmissionFence.checkAdmission_of_open (h.isOpen target htarget))
    have hnamed : ¬ draft.dependencies.val.isEmpty = true := fun hnil =>
      h.named (List.isEmpty_iff.mp hnil)
    obtain ⟨o, ho⟩ := hnumbered.insert_ok h.room h.ids
      { draft with admittedAt := now, admissionGeneration := presented }
    refine ⟨o, ?_⟩
    simp only [admitObligation, h.authorized, if_neg hnamed, if_neg (Nat.not_lt.mpr h.bound), hpasses]
    rcases hins : e.obligations.insert
      { draft with admittedAt := now, admissionGeneration := presented } with ⟨table, err | stored⟩
    · rw [hins] at ho
      cases ho
    · rw [hins] at ho
      exact ho

end

/-- In every reachable state, a draft that only open targets stand for is admitted under some
generation exactly when those targets are at one. -/
theorem open_targets_admit {C : Engine → Event → Prop} {e : Engine} (he : Reachable C e)
    {draft : Obligation} {authority : AuthorityId} {now : TimePoint}
    (h : e.Admits draft authority now) :
    (∃ presented o, (e.admitObligation draft presented authority now).2 = .ok o) ↔
      ∀ a ∈ draft.dependencies.val, ∀ b ∈ draft.dependencies.val,
        e.fence.generation a = e.fence.generation b := by
  have hadmits := admitObligation_ok_iff he.sound.obligations h
  constructor
  · rintro ⟨presented, hok⟩ a ha b hb
    have hsame := (hadmits presented).mp hok
    rw [hsame a ha, hsame b hb]
  · intro hsame
    obtain ⟨first, hfirst⟩ := List.exists_mem_of_ne_nil _ h.named
    exact ⟨e.fence.generation first, (hadmits _).mpr (fun target htarget =>
      hsame target htarget first hfirst)⟩

namespace OnePort

/-- The drain of the port was cancelled and the port restored. -/
def reopened : Engine :=
  run perform (Engine.init {}) ((setup 1).map .call ++ [.advance 1, .advance 1,
    .call (.cancelDrain 1 1 "not now" 1), .call (.restoreDrain 1 1 "back" 1), .advance 1])

/-- A flow over some ports. -/
def flowOver (targets : List DrainTarget) : Obligation := .make .activeFlow "flow" targets

theorem reachable_reopened : Reachable (fun _ _ => True) reopened :=
  reachable_run (.init {}) (by decide +kernel)

theorem admits_reopened (targets : List DrainTarget)
    (hnamed : (flowOver targets).dependencies.val ≠ [])
    (hbound : (flowOver targets).dependencies.val.length ≤ maxDependenciesPerObligation)
    (hopen : ∀ target ∈ (flowOver targets).dependencies.val, reopened.fence.isClosed target = false) :
    reopened.Admits (flowOver targets) 1 1 :=
  ⟨by decide +kernel, hnamed, hbound, hopen, by decide +kernel, by decide +kernel⟩

end OnePort

open OnePort in
theorem open_targets_admit_onePort :
    ∃ presented o, (reopened.admitObligation (flowOver [port]) presented 1 1).2 = .ok o := by
  have hiff := open_targets_admit reachable_reopened
    (admits_reopened [port] (by decide +kernel) (by decide +kernel) (by decide +kernel))
  exact hiff.mpr (by decide +kernel)

open OnePort in
/-- The port was restored and the other was never fenced: both are open, and no generation
admits a flow over the two. -/
theorem open_targets_refuse :
    Reachable (fun _ _ => True) reopened ∧ reopened.Admits (flowOver [port, remote]) 1 1 ∧
      ∀ presented o,
        (reopened.admitObligation (flowOver [port, remote]) presented 1 1).2 ≠ .ok o := by
  have hadmits : reopened.Admits (flowOver [port, remote]) 1 1 :=
    admits_reopened [port, remote] (by decide +kernel) (by decide +kernel) (by decide +kernel)
  refine ⟨reachable_reopened, hadmits, fun presented o hok => ?_⟩
  have hsame := (admitObligation_ok_iff reachable_reopened.sound.obligations hadmits presented).mp
    ⟨o, hok⟩
  have hport : reopened.fence.generation port = 2 := by decide +kernel
  have hremote : reopened.fence.generation remote = 0 := by decide +kernel
  have hclash : 2 = 0 := by
    rw [← hport, ← hremote, hsame port (by decide +kernel), hsame remote (by decide +kernel)]
  cases hclash

end DrainFabric
